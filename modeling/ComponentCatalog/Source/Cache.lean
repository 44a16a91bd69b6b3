import ComponentCatalog.Text.Entries

/-!
A cache whose entries live for a limited time. Expiry is lazy: an expired entry goes when it is
looked up or swept. Times are values of any type with an order, a difference and a zero.
-/
namespace ComponentCatalog

namespace Cache

structure Entry (τ α : Type) where
  value : α
  storedAt : τ
  /-- How long the entry lives; for ever unless positive. -/
  lifetime : τ

/-- More time than the entry's lifetime has passed since it was stored. -/
def Entry.isExpired [Zero τ] [Sub τ] [LT τ] [DecidableLT τ] (e : Entry τ α) (now : τ) : Bool :=
  decide (0 < e.lifetime) && decide (e.lifetime < now - e.storedAt)

end Cache

/-- Entries by key, in the order in which the keys were first stored. -/
structure Cache (τ α : Type) where
  lifetime : τ
  entries : Entries (Cache.Entry τ α)

namespace Cache

variable {τ α : Type}

/-- The empty cache; entries live for `lifetime` unless stored with their own. -/
def empty (lifetime : τ) : Cache τ α := ⟨lifetime, []⟩

def size (c : Cache τ α) : Nat := c.entries.length

/-- Stores a value, in the place of an older one under the same key or at the end. -/
def store (c : Cache τ α) (now : τ) (key : Text) (value : α) (lifetime? : Option τ) : Cache τ α :=
  { c with entries := Entries.set key ⟨value, now, lifetime?.getD c.lifetime⟩ c.entries }

def erase (c : Cache τ α) (key : Text) : Cache τ α :=
  { c with entries := Entries.erase key c.entries }

/-- The stored entry under a key, expired or not. -/
def entry? (c : Cache τ α) (key : Text) : Option (Entry τ α) := Entries.get? key c.entries

/-- Removes the entry under a key; tells whether there was one, expired or not. -/
def delete (c : Cache τ α) (key : Text) : Bool × Cache τ α := ((c.entry? key).isSome, c.erase key)

/-- Removes the entries that satisfy `doomed`; tells how many there were. -/
def discard (c : Cache τ α) (doomed : Text × Entry τ α → Bool) : Nat × Cache τ α :=
  (c.entries.countP doomed, { c with entries := c.entries.filter fun entry => !doomed entry })

/-- Removes the entries whose keys begin with `lead`. -/
def deleteUnder (c : Cache τ α) (lead : Text) : Nat × Cache τ α :=
  c.discard fun (k, _) => Text.startsWith lead k

def clear (c : Cache τ α) : Cache τ α := { c with entries := [] }

variable [Zero τ] [Sub τ] [LT τ] [DecidableLT τ]

/-- Removes the expired entries. -/
def sweep (c : Cache τ α) (now : τ) : Nat × Cache τ α := c.discard fun (_, e) => e.isExpired now

/-- The live value under a key; an expired entry goes. -/
def lookup (c : Cache τ α) (now : τ) (key : Text) : Option α × Cache τ α :=
  match c.entry? key with
  | none => (none, c)
  | some e => if e.isExpired now then (none, c.erase key) else (some e.value, c)

/-- What a look-up with a fetch in reserve came to. -/
inductive Fetched (ε α : Type) where
  | cached (value : α)
  | fetched (value : α)
  | failed (error : ε)

/-- The live value under a key, or else what `fetch` gives, which is stored unless it failed. -/
def getOrFetch (c : Cache τ α) (now : τ) (key : Text) (fetch : Except ε α) (lifetime? : Option τ) :
    Fetched ε α × Cache τ α :=
  match c.lookup now key with
  | (some value, c) => (.cached value, c)
  | (none, c) =>
    match fetch with
    | .ok value => (.fetched value, c.store now key value lifetime?)
    | .error e => (.failed e, c)

end Cache

end ComponentCatalog

import ComponentCatalog.Proofs.Entries
import ComponentCatalog.Source.Cache

/-!
The view of a cache: which entry stands under a key, and which keys there are, after each operation.
-/
namespace ComponentCatalog.Cache

variable {τ α : Type}

theorem entry?_store (c : Cache τ α) (now : τ) (key key' : Text) (value : α)
    (lifetime? : Option τ) :
    Cache.entry? (c.store now key value lifetime?) key' =
      if key' = key then some ⟨value, now, lifetime?.getD c.lifetime⟩ else c.entry? key' :=
  Entries.get?_set key key' _ c.entries

theorem entry?_erase (c : Cache τ α) (key key' : Text) :
    Cache.entry? (c.erase key) key' = if key' = key then none else c.entry? key' :=
  Entries.get?_erase key key' c.entries

theorem entry?_deleteUnder (c : Cache τ α) (lead key : Text) :
    Cache.entry? (c.deleteUnder lead).2 key =
      if Text.startsWith lead key then none else c.entry? key := by
  have hget := Entries.get?_filter (fun key => !Text.startsWith lead key) key c.entries
  cases hlead : Text.startsWith lead key <;>
    simpa [hlead, entry?, deleteUnder, discard] using hget

theorem keys_deleteUnder (c : Cache τ α) (lead : Text) :
    Entries.keys (c.deleteUnder lead).2.entries =
      (Entries.keys c.entries).filter fun key => !Text.startsWith lead key := by
  rw [Entries.keys, Entries.keys, List.filter_map]
  rfl

theorem deleteUnder_count (lead : Text) (c : Cache τ α) :
    (c.deleteUnder lead).1 = (Entries.keys c.entries).countP (Text.startsWith lead) := by
  rw [Entries.keys, List.countP_map]
  rfl

/-- The entries that are counted and those that stay are all there were. -/
theorem discard_count (c : Cache τ α) (doomed : Text × Entry τ α → Bool) :
    (c.discard doomed).1 + (c.discard doomed).2.size = c.size := by
  have hsplit := List.length_eq_countP_add_countP doomed (l := c.entries)
  have hkept : (c.entries.filter fun entry => !doomed entry).length =
      c.entries.countP fun entry => !doomed entry := List.countP_eq_length_filter.symm
  simp only [Bool.not_eq_true, Bool.decide_eq_false] at hsplit
  simp only [discard, size, hkept, hsplit]

variable [Zero τ] [Sub τ] [LT τ] [DecidableLT τ]

/-- An entry that has not expired is what a look-up gives, and stays. -/
theorem lookup_of_live {c : Cache τ α} {now : τ} {key : Text} {e : Entry τ α}
    (h : c.entry? key = some e) (hl : e.isExpired now = false) :
    c.lookup now key = (some e.value, c) := by
  simp [lookup, h, hl]

/-- Without such an entry a look-up gives nothing and leaves none for the key. -/
theorem lookup_of_not_live {c : Cache τ α} {now : τ} {key : Text}
    (h : ∀ e, c.entry? key = some e → e.isExpired now = true) :
    c.lookup now key = (none, c.erase key) := by
  rw [lookup]
  split
  next hn => rw [erase, Entries.erase_eq_self hn]
  next e he => simp [h e he]

end ComponentCatalog.Cache

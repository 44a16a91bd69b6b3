import ComponentCatalog.Proofs.Reading

/-!
Sources that keep a record of what they were asked for and what they answered. The record changes
nothing else, so that what a source is asked for can be told without a view into the source.
-/
namespace ComponentCatalog

namespace Provider

/-- What a source can be asked for. -/
inductive Kind where
  | file | directory
  deriving DecidableEq

def Kind.Answer : Kind → Type
  | .file => Text
  | .directory => List Text

def Kind.choose {α : Type} (file directory : α) : Kind → α
  | .file => file
  | .directory => directory

/-- A question to a source, and what came of it. -/
structure Call where
  kind : Kind
  path : Text
  result : Except Failure kind.Answer

def Call.question (c : Call) : Kind × Text := (c.kind, c.path)

variable {σ : Type}

def read (p : Provider σ) : (k : Kind) → Text → Reading σ k.Answer
  | .file, path => p.fetchText path
  | .directory, path => p.listDirectory path

end Provider

open Provider

/-- A source with state `inner` and the calls that reached it, first to last. -/
structure Recorded (σ : Type) where
  inner : σ
  calls : List Call

namespace Recorded

variable {σ : Type}

def record (k : Kind) (path : Text) (r : Reading σ k.Answer) : Reading (Recorded σ) k.Answer :=
  fun s =>
    let (result, t) := r.run ⟨s.state.inner, s.log⟩
    (result, ⟨⟨t.state, s.state.calls ++ [⟨k, path, result⟩]⟩, t.log⟩)

end Recorded

/-- The source with a record of its calls. -/
def Provider.recorded {σ : Type} (p : Provider σ) : Provider (Recorded σ) where
  fetchText path := Recorded.record .file path (p.fetchText path)
  listDirectory path := Recorded.record .directory path (p.listDirectory path)
  extent r := p.extent r.inner

theorem Provider.run_recorded_read {σ : Type} (p : Provider σ) (k : Kind) (path : Text)
    (s : Session (Recorded σ)) :
    (p.recorded.read k path).run s =
      let call := (p.read k path).run ⟨s.state.inner, s.log⟩
      (call.1, ⟨⟨call.2.state, s.state.calls ++ [⟨k, path, call.1⟩]⟩, call.2.log⟩) := by
  cases k <;> rfl

namespace Recorded

variable {σ α β : Type}

def forget (s : Session (Recorded σ)) : Session σ := ⟨s.state.inner, s.log⟩

/-- The readings give the same and do the same to the source, whatever is on record. -/
def Agree (r : Reading (Recorded σ) α) (r' : Reading σ α) : Prop :=
  ∀ s, r'.run (forget s) = ((r.run s).1, forget (r.run s).2)

theorem agree_read (p : Provider σ) (k : Kind) (path : Text) :
    Agree (p.recorded.read k path) (p.read k path) := fun s => by
  rw [Provider.run_recorded_read]
  rfl

namespace Agree

theorem pure (a : α) : Agree (Pure.pure a : Reading (Recorded σ) α) (Pure.pure a) := fun _ => rfl

theorem report (level : Log.Level) (area : String) (message : Text) :
    Agree (Reading.report level area message : Reading (Recorded σ) Unit)
      (Reading.report level area message) := fun _ => rfl

theorem bind {r : Reading (Recorded σ) α} {r' : Reading σ α} {f : α → Reading (Recorded σ) β}
    {f' : α → Reading σ β} (h : Agree r r') (hf : ∀ a, Agree (f a) (f' a)) :
    Agree (r >>= f) (r' >>= f') := fun s => by
  rw [Reading.run_bind, Reading.run_bind, h s]
  rcases r.run s with ⟨_ | a, t⟩
  · rfl
  · exact hf a t

theorem optional {r : Reading (Recorded σ) α} {r' : Reading σ α} (h : Agree r r') :
    Agree (Reading.optional r) (Reading.optional r') := fun s => by
  rw [Reading.run_optional, Reading.run_optional, h s]
  rcases r.run s with ⟨(_ | _ | _ | _) | a, t⟩ <;> rfl

theorem foldlM {f : β → α → Reading (Recorded σ) β} {f' : β → α → Reading σ β}
    (h : ∀ b a, Agree (f b a) (f' b a)) (as : List α) (b : β) :
    Agree (as.foldlM f b) (as.foldlM f' b) := by
  induction as generalizing b with
  | nil => exact pure b
  | cons a as ih => exact (h b a).bind ih

end Agree

end Recorded

end ComponentCatalog

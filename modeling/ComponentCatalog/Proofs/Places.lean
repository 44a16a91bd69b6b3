import Mathlib.Data.List.Nodup
import Mathlib.Data.List.Perm.Basic
import ComponentCatalog.Proofs.Scanning

/-!
The hits of a scan with their places. They stand in order and apart, each is what the shape finds at
its place, and at a place that no hit covers the shape finds nothing.
-/
namespace ComponentCatalog.Text

/-- What a shape finds, where, and how much it takes. -/
structure Hit (α : Type) where
  first : Nat
  length : Nat
  value : α

/-- The place after a hit, where the scan goes on; a hit of nothing covers one character. -/
def Hit.last {α : Type} (hit : Hit α) : Nat := hit.first + max hit.length 1

/-- The place before the `i`-th character of a text. -/
def cursorAt (s : Text) (i : Nat) : Cursor := ⟨i, lastOf none (s.take i), s.drop i⟩

/-- The shape, told with its place. -/
def located {α : Type} (shape : Shape α) : Shape (Hit α) := fun at_ =>
  (shape at_).map fun (a, length) => (⟨at_.offset, length, a⟩, length)

/-- The hits of a scan, with their places. -/
def places {α : Type} (shape : Shape α) (s : Text) : List (Hit α) := hits (located shape) s

variable {α : Type} {shape : Shape α} {s : Text}

theorem hitsFrom_located (skip offset : Nat) (previous : Option Char) (s : Text) :
    (hitsFrom (located shape) skip offset previous s).map Hit.value =
      hitsFrom shape skip offset previous s := by
  induction s generalizing skip offset previous with
  | nil => simp [hitsFrom]
  | cons c rest ih =>
    cases skip with
    | succ skip => exact ih skip _ _
    | zero =>
      rw [hitsFrom, hitsFrom, located]
      cases shape ⟨offset, previous, c :: rest⟩ with
      | none => exact ih 0 _ _
      | some found => exact congrArg (found.1 :: ·) (ih _ _ _)

@[simp] theorem map_value_places (shape : Shape α) (s : Text) :
    (places shape s).map Hit.value = hits shape s := hitsFrom_located 0 0 none s

/-- From the place `start` on, the list holds the hits of the shape in the text. -/
structure Scanned (shape : Shape α) (s : Text) (start : Nat) (found : List (Hit α)) : Prop where
  hit : ∀ x ∈ found, start ≤ x.first ∧ x.first < s.length ∧
    shape (cursorAt s x.first) = some (x.value, x.length)
  apart : found.Pairwise fun x y => x.last ≤ y.first
  missed : ∀ i, start ≤ i → i < s.length → (∀ x ∈ found, ¬(x.first ≤ i ∧ i < x.last)) →
    shape (cursorAt s i) = none

theorem Scanned.cons {start : Nat} {found : List (Hit α)} {x : Hit α}
    (h : Scanned shape s x.last found) (hstart : start = x.first) (hlt : x.first < s.length)
    (hshape : shape (cursorAt s x.first) = some (x.value, x.length)) :
    Scanned shape s start (x :: found) where
  hit := by
    refine List.forall_mem_cons.mpr ⟨⟨hstart.le, hlt, hshape⟩, fun y hy => ?_⟩
    obtain ⟨hle, hrest⟩ := h.hit y hy
    refine ⟨?_, hrest⟩
    unfold Hit.last at hle
    omega
  apart := List.pairwise_cons.mpr ⟨fun y hy => (h.hit y hy).1, h.apart⟩
  missed := by
    intro i hi hlt hnone
    have hnot := hnone x List.mem_cons_self
    exact h.missed i (by omega) hlt fun y hy => hnone y (.tail _ hy)

theorem scanned_hitsFrom (u t : Text) (skip : Nat) :
    Scanned shape (u ++ t) (u.length + skip)
      (hitsFrom (located shape) skip u.length (lastOf none u) t) := by
  induction t generalizing u skip with
  | nil =>
    rw [hitsFrom]
    refine ⟨List.forall_mem_nil _, .nil, fun i hi hlt => ?_⟩
    rw [List.append_nil] at hlt
    omega
  | cons c t ih =>
    -- What is behind the first character is read as the rest after a longer beginning.
    have hnext (skip : Nat) : Scanned shape (u ++ c :: t) (u.length + 1 + skip)
        (hitsFrom (located shape) skip (u.length + 1) (some c) t) := by
      have h := ih (u ++ [c]) skip
      rwa [lastOf_append, List.append_assoc, List.length_append] at h
    have hhere : cursorAt (u ++ c :: t) u.length = ⟨u.length, lastOf none u, c :: t⟩ := by
      rw [cursorAt, List.take_left, List.drop_left]
    cases skip with
    | succ skip =>
      rw [hitsFrom, Nat.add_comm skip, ← Nat.add_assoc]
      exact hnext skip
    | zero =>
      rw [hitsFrom, located]
      cases hshape : shape ⟨u.length, lastOf none u, c :: t⟩ with
      | none =>
        obtain ⟨hhit, hapart, hmissed⟩ := hnext 0
        refine ⟨fun x hx => ?_, hapart, fun i hi hlt hnone => ?_⟩
        · obtain ⟨hle, hrest⟩ := hhit x hx
          exact ⟨by omega, hrest⟩
        · rcases Nat.eq_or_lt_of_le hi with rfl | hi
          · exact hhere ▸ hshape
          · exact hmissed i hi hlt hnone
      | some found =>
        obtain ⟨a, length⟩ := found
        have hlength : u.length + 1 + (length - 1) = u.length + max length 1 := by omega
        have hmore := hnext (length - 1)
        rw [hlength] at hmore
        exact hmore.cons (x := ⟨u.length, length, a⟩) rfl (by simp) (hhere ▸ hshape)

theorem scanned_places (shape : Shape α) (s : Text) : Scanned shape s 0 (places shape s) :=
  scanned_hitsFrom [] s 0

/-- Of two hits, one ends before the other begins. -/
theorem Scanned.separate {start : Nat} {found : List (Hit α)} (h : Scanned shape s start found)
    {x y : Hit α} (hx : x ∈ found) (hy : y ∈ found) :
    x.last ≤ y.first ∨ y.last ≤ x.first ∨ x = y := by
  apply List.Pairwise.forall_of_forall_of_flip (fun x _ => .inr (.inr rfl))
    (h.apart.imp fun hle => .inl hle) (h.apart.imp fun hle => .inr (.inl hle)) hx hy

/-- The search finds what the shape finds at the first place. -/
theorem firstHit_eq_some {a : α} {i length : Nat}
    (h : shape (cursorAt s i) = some (a, length)) (hi : i < s.length)
    (hfirst : ∀ j < i, shape (cursorAt s j) = none) : firstHit shape s = some a := by
  have hscan := scanned_places shape s
  rw [firstHit, firstHitFrom_eq_head?, ← hits, ← map_value_places]
  cases hplaces : places shape s with
  | nil =>
    rw [hplaces] at hscan
    exact absurd (hscan.missed i (Nat.zero_le _) hi (by simp)) (by simp [h])
  | cons x found =>
    rw [hplaces] at hscan
    obtain ⟨-, -, hx⟩ := hscan.hit x List.mem_cons_self
    have hle : x.first ≤ i := by
      by_contra hlt
      -- No hit covers the place, as the later ones come behind the first.
      have hnone := hscan.missed i (Nat.zero_le _) hi fun y hy hcover => by
        rcases List.mem_cons.mp hy with rfl | hy
        · exact hlt hcover.1
        · have hbehind := List.rel_of_pairwise_cons hscan.apart hy
          unfold Hit.last at hbehind
          omega
      exact absurd hnone (by simp [h])
    rcases Nat.eq_or_lt_of_le hle with heq | hlt
    · rw [heq, h] at hx
      cases hx
      rfl
    · exact absurd (hfirst _ hlt) (by simp [hx])

/-- Sorting by offset restores the order of the text. -/
theorem mergeSort_of_perm {α : Type} {found inOrder : List (Nat × α)}
    (hperm : found.Perm inOrder) (hinOrder : inOrder.Pairwise fun a b => a.1 < b.1) :
    (found.mergeSort fun a b => a.1 ≤ b.1) = inOrder := by
  have hsorted : (found.mergeSort fun a b => a.1 ≤ b.1).Pairwise
      fun a b => decide (a.1 ≤ b.1) = true := List.pairwise_mergeSort
    (fun a b c hab hbc => by simp only [decide_eq_true_eq] at hab hbc ⊢; omega)
    (fun a b => by simp only [Bool.or_eq_true, decide_eq_true_eq]; omega) found
  have hsame := (List.mergeSort_perm found fun a b => a.1 ≤ b.1).trans hperm
  refine List.Perm.eq_of_pairwise (fun a b ha hb hab hba => ?_) hsorted
    (hinOrder.imp fun h => decide_eq_true (Nat.le_of_lt h)) hsame
  -- Two entries at one offset are the same, as the offsets increase.
  have hnodup : (inOrder.map Prod.fst).Nodup :=
    (List.pairwise_map.mpr hinOrder).imp fun h => Nat.ne_of_lt h
  simp only [decide_eq_true_eq] at hab hba
  exact List.inj_on_of_nodup_map hnodup (hsame.mem_iff.mp ha) hb (Nat.le_antisymm hab hba)

theorem slice_add (s : Text) (first length : Nat) :
    slice s first (first + length) = (s.drop first).take length := by
  rw [slice, List.drop_take, Nat.add_sub_cancel_left]

end ComponentCatalog.Text

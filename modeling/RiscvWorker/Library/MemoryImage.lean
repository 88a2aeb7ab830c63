import Mathlib.Data.List.Perm.Subperm
import Mathlib.Logic.Nontrivial.Defs

/-! # Memory images

  An image is a list of values with their addresses. Values stored one after
  another from a base address are an image whose addresses count from zero;
  an image in the order of its addresses, with as many values, is put in
  memory by such a store only if it is that image.
-/

namespace MemoryImage

variable {β : Type}

/-- The memory after `values` are stored from `base` on. -/
def store (base : Nat) (values : List β) (M : Nat → β) : Nat → β :=
  fun x => if base ≤ x then values[x - base]?.getD (M x) else M x

theorem store_of_lt {base : Nat} {values : List β} (M : Nat → β) {i : Nat}
    (h : i < values.length) : store base values M (base + i) = values[i] := by
  unfold store
  rw [if_pos (Nat.le_add_right base i), Nat.add_sub_cancel_left, List.getElem?_eq_getElem h]
  rfl

theorem store_of_ge {base : Nat} {values : List β} (M : Nat → β) {i : Nat}
    (h : values.length ≤ i) : store base values M (base + i) = M (base + i) := by
  unfold store
  rw [if_pos (Nat.le_add_right base i), Nat.add_sub_cancel_left, List.getElem?_eq_none h]
  rfl

theorem store_below {base : Nat} {values : List β} (M : Nat → β) {x : Nat} (h : x < base) :
    store base values M x = M x := by
  unfold store
  rw [if_neg (Nat.not_le.mpr h)]

/-- What is stored in two parts. -/
theorem store_append (base : Nat) (xs ys : List β) (M : Nat → β) :
    store base (xs ++ ys) M = store (base + xs.length) ys (store base xs M) := by
  funext x
  rcases Nat.lt_or_ge x base with hx | hx
  · rw [store_below M hx, store_below _ (by omega), store_below M hx]
  · obtain ⟨i, rfl⟩ := Nat.exists_eq_add_of_le hx
    rcases Nat.lt_or_ge i xs.length with hi | hi
    · have hi' : i < (xs ++ ys).length := by
        rw [List.length_append]
        omega
      rw [store_of_lt M hi', List.getElem_append_left hi, store_below _ (by omega),
        store_of_lt M hi]
    · obtain ⟨j, rfl⟩ := Nat.exists_eq_add_of_le hi
      rw [← Nat.add_assoc]
      rcases Nat.lt_or_ge j ys.length with hj | hj
      · have hj' : xs.length + j < (xs ++ ys).length := by
          rw [List.length_append]
          omega
        rw [store_of_lt _ hj, Nat.add_assoc, store_of_lt M hj', List.getElem_append_right hi]
        simp
      · have hj' : (xs ++ ys).length ≤ xs.length + j := by
          rw [List.length_append]
          omega
        rw [store_of_ge _ hj, Nat.add_assoc, store_of_ge M hj', store_of_ge M hi]

/-- Pieces of one width, stored one by one. -/
theorem store_pieces {width : Nat} {pieces : List (List β)}
    (hwidth : ∀ p ∈ pieces, p.length = width) (base n : Nat) (M : Nat → β) :
    (pieces.zipIdx n).foldl (fun M p => store (base + p.2 * width) p.1 M) M =
      store (base + n * width) pieces.flatten M := by
  induction pieces generalizing n M with
  | nil =>
    funext x
    show M x = store (base + n * width) [] M x
    unfold store
    split
    · rfl
    · rfl
  | cons p pieces ih =>
    have hp := hwidth p List.mem_cons_self
    have hrest := ih (fun q hq => hwidth q (List.mem_cons_of_mem p hq)) (n + 1)
      (store (base + n * width) p M)
    rw [List.zipIdx_cons, List.foldl_cons, hrest, List.flatten_cons, store_append, hp,
      Nat.succ_mul, Nat.add_assoc]

/-! ### Images -/

/-- Whatever is in memory, `load` puts the image at `base`, and nothing
    anywhere else. -/
def Puts (load : (Nat → β) → Nat → β) (base : Nat) (image : List (β × Nat)) : Prop :=
  ∀ M, (∀ p ∈ image, load M (base + p.2) = p.1) ∧
    ∀ x, (∀ p ∈ image, x ≠ base + p.2) → load M x = M x

theorem zipIdx_sorted (values : List β) (n : Nat) :
    (values.zipIdx n).Pairwise fun p q => p.2 < q.2 := by
  rw [← List.pairwise_map (f := Prod.snd), List.zipIdx_map_snd]
  exact List.pairwise_lt_range'

theorem puts_zipIdx (base : Nat) (values : List β) :
    Puts (store base values) base values.zipIdx := by
  intro M
  constructor
  · intro p hp
    obtain ⟨hlt, hval⟩ := List.mem_zipIdx' hp
    rw [store_of_lt M hlt, hval]
  · intro x hx
    rcases Nat.lt_or_ge x base with hlt | hge
    · exact store_below M hlt
    · obtain ⟨i, rfl⟩ := Nat.exists_eq_add_of_le hge
      apply store_of_ge M
      apply Nat.le_of_not_lt
      intro hi
      have hmem : (values[i], i) ∈ values.zipIdx :=
        List.mk_mem_zipIdx_iff_getElem?.mpr (List.getElem?_eq_getElem hi)
      exact hx _ hmem rfl

/-- A value of the image is the one that is stored at its address. -/
theorem Puts.subset [Nontrivial β] {base : Nat} {values : List β} {image : List (β × Nat)}
    (h : Puts (store base values) base image) : image ⊆ values.zipIdx := by
  intro p hp
  have hput : ∀ M, store base values M (base + p.2) = p.1 := fun M => (h M).1 p hp
  rcases Nat.lt_or_ge p.2 values.length with hlt | hge
  · have hval : values[p.2] = p.1 := by
      rw [← hput (fun _ => p.1), store_of_lt _ hlt]
    apply List.mk_mem_zipIdx_iff_getElem?.mpr
    rw [List.getElem?_eq_getElem hlt, hval]
  · -- an address that is not written keeps what was there
    obtain ⟨v, hv⟩ := exists_ne p.1
    have hkept := hput (fun _ => v)
    rw [store_of_ge _ hge] at hkept
    exact absurd hkept hv

/-- An ordered image with at least as many values is put in memory by a store
    only if it is what is stored. -/
theorem puts_store_iff [Nontrivial β] {image : List (β × Nat)} {values : List β}
    (hsorted : image.Pairwise fun p q => p.2 < q.2) (hlen : values.length ≤ image.length)
    (base : Nat) : Puts (store base values) base image ↔ image = values.zipIdx := by
  constructor
  · intro h
    have hnodup : image.Nodup := by
      apply hsorted.imp
      intro p q hlt heq
      rw [heq] at hlt
      exact absurd hlt (Nat.lt_irrefl _)
    have hperm : image.Perm values.zipIdx := by
      apply (List.subperm_of_subset hnodup h.subset).perm_of_length_le
      rw [List.length_zipIdx]
      exact hlen
    have hantisymm : ∀ p q : β × Nat, p ∈ image → q ∈ values.zipIdx → p.2 < q.2 → q.2 < p.2 →
        p = q := by
      intro p q _ _ hpq hqp
      omega
    exact hperm.eq_of_pairwise hantisymm hsorted (zipIdx_sorted values 0)
  · rintro rfl
    exact puts_zipIdx base values

end MemoryImage

import RiscvWorker.Library.WordArray
import RiscvWorker.Worker.Client

/-! # Uploads

  `upload_words` puts a list of integers into the block RAM of a halted
  worker, each modulo 2^32. Its verification fails for the first integer
  that is not a word, and for nothing else.
-/

namespace RiscvWorker

open ByteMemory
open Interaction (wp wp_seq wp_mono)
open Firmware (Board Wired)
open Rv32i (ArchState)

namespace Host

/-- The integers, as they arrive. -/
def as_words (words : List Int) : List Word := words.map (BitVec.ofInt 32)

/-- The first integer that is no word, with its position. -/
def first_unfit (words : List Int) : Option (Int × Nat) :=
  words.zipIdx.find? fun (word, _) => word ≠ word % 2 ^ 32

/-- What becomes of an upload that the worker can serve. -/
def upload_result (base_addr : Int) (words : List Int) (verify : Bool) : Except Failure Unit :=
  if verify then
    match first_unfit words with
    | some (word, idx) =>
      .error (.RuntimeError (upload_failure (base_addr + idx * 4) word (word % 2 ^ 32)))
    | none => .ok ()
  else .ok ()

theorem first_unfit_eq_none {words : List Int} (h : ∀ word ∈ words, word = word % 2 ^ 32) :
    first_unfit words = none := by
  refine List.find?_eq_none.mpr ?_
  rintro ⟨word, idx⟩ hmem
  have hword := h word (List.fst_mem_of_mem_zipIdx hmem)
  simpa using hword

theorem first_unfit_eq_some {words : List Int} {k : Nat} (hk : k < words.length)
    (hne : words[k] ≠ words[k] % 2 ^ 32)
    (hbefore : ∀ j (hj : j < k), words[j] = words[j] % 2 ^ 32) :
    first_unfit words = some (words[k], k) := by
  refine List.find?_eq_some_iff_getElem.mpr ⟨by simpa using hne, k, by simpa using hk, by simp, ?_⟩
  intro j hj
  have hword := hbefore j hj
  simpa using hword

theorem word_addr_value {base : Word} {k : Nat} (h : base.toNat + 4 * k < 2 ^ 32) :
    ((word_addr base k).toNat : Int) = base.toNat + k * 4 := by
  unfold word_addr
  rw [BitVec.toNat_add, BitVec.toNat_ofNat]
  omega

section upload
variable {bram base : Word} {words : List Int} {A : ArchState} {out : List (List Text.Byte)}
  {E : Failure → Bench → Prop}
  (hin : ∀ k, k < words.length → in_bram bram (word_addr base k) = true)
  (hfit : base.toNat + 4 * words.length ≤ 2 ^ 32)

/-- The memory after the words that have been written. -/
def uploaded (A : ArchState) (base : Word) (ws : List Word) : ArchState :=
  { A with mem := store_words A.mem base ws }

include hin hfit

/-- A loop of writes, of a value for each of the words. -/
theorem wp_write_words {g : Int → Int} {Q : Unit → Bench → Prop}
    (hQ : Q () (at_rest (uploaded A base (as_words (words.map g))) out)) :
    wp (client_service bram)
      (Interaction.Program.each
        (fun (word, idx) => Script.call (.write_word ((base.toNat : Int) + idx * 4) (g word)))
        words.zipIdx) Q E (at_rest A out) := by
  refine wp_mono (Q := fun _ w => w = at_rest (uploaded A base
      ((as_words (words.map g)).take words.zipIdx.length)) out) ?_ (fun _ _ he => he) ?_
  · rintro - w rfl
    rwa [List.length_zipIdx, List.take_of_length_le (by simp [as_words])]
  · refine Interaction.wp_each (I := fun k w => w = at_rest (uploaded A base
      ((as_words (words.map g)).take k)) out) ?_ rfl
    rintro k hk w rfl
    rw [List.length_zipIdx] at hk
    have hlen : k < (as_words (words.map g)).length := by simpa [as_words] using hk
    have hvalue := @word_addr_value base k (by omega)
    rw [List.getElem_zipIdx, Nat.zero_add]
    dsimp only
    rw [← hvalue]
    refine wp_write_word (hin k hk) _ ?_
    unfold uploaded
    rw [store_words_take_succ _ _ hlen]
    simp [as_words]

theorem wp_verify_words {Q : Unit → Bench → Prop} {w : Bench}
    (hw : w = at_rest (uploaded A base (as_words words)) out)
    (hQ : (∀ word ∈ words, word = word % 2 ^ 32) → Q () w)
    (hE : ∀ k (hk : k < words.length), words[k] ≠ words[k] % 2 ^ 32 →
      (∀ j (hj : j < k), words[j] = words[j] % 2 ^ 32) →
      E (.RuntimeError (upload_failure (base.toNat + k * 4) words[k] (words[k] % 2 ^ 32))) w) :
    wp (client_service bram)
      (Interaction.Program.each (verify_word base.toNat) words.zipIdx) Q E w := by
  refine wp_mono (Q := fun _ w' => w' = w ∧ ∀ j (hj : j < words.length),
      j < words.zipIdx.length → words[j] = words[j] % 2 ^ 32) ?_ (fun _ _ he => he) ?_
  · rintro - w' ⟨rfl, hall⟩
    apply hQ
    intro word hword
    obtain ⟨j, hj, rfl⟩ := List.getElem_of_mem hword
    exact hall j hj (by simpa using hj)
  · refine Interaction.wp_each (I := fun k w' => w' = w ∧ ∀ j (hj : j < words.length),
      j < k → words[j] = words[j] % 2 ^ 32) ?_ ⟨rfl, fun j hj hj0 => absurd hj0 (Nat.not_lt_zero j)⟩
    rintro k hk w' ⟨rfl, hbefore⟩
    rw [List.length_zipIdx] at hk
    have hvalue := @word_addr_value base k (by omega)
    have hload :
        ((load_word (uploaded A base (as_words words)).mem (word_addr base k)).toNat : Int) =
        words[k] % 2 ^ 32 := by
      have halign : base.toNat % 4 = 0 := by
        have h0 := aligned_of_in_bram (hin 0 (by omega))
        rwa [word_addr_zero] at h0
      have hlen : k < (as_words words).length := by simpa [as_words] using hk
      have hwords : 4 * (as_words words).length ≤ 2 ^ 32 := by
        have hsame : (as_words words).length = words.length := by simp [as_words]
        omega
      unfold uploaded
      rw [load_word_store_words A.mem halign hwords hlen, ← ofInt_value]
      simp [as_words]
    rw [List.getElem_zipIdx, Nat.zero_add]
    unfold verify_word
    dsimp only
    rw [← hvalue, hw]
    refine wp_seq (wp_read_word (hin k hk) ?_)
    rw [hload, ← hw]
    split
    · rename_i hne
      rw [hvalue]
      exact hE k hk (fun h => hne h.symm) (fun j hj => hbefore j (by omega) hj)
    · rename_i heq
      refine ⟨rfl, ?_⟩
      intro j hj hjk
      rcases Nat.lt_succ_iff_lt_or_eq.mp hjk with hlt | rfl
      · exact hbefore j hj hlt
      · exact (not_not.mp heq).symm

theorem wp_upload_words {Q : Unit → Bench → Prop} (verify : Bool)
    (h : match upload_result base.toNat words verify with
      | .ok a => Q a (at_rest (uploaded A base (as_words words)) out)
      | .error e => E e (at_rest (uploaded A base (as_words words)) out)) :
    wp (client_service bram) (upload_words base.toNat words verify) Q E (at_rest A out) := by
  refine wp_seq (wp_write_words (g := fun word => word) hin hfit ?_)
  rw [List.map_id']
  cases verify with
  | false => exact h
  | true =>
    rw [upload_result, if_pos rfl] at h
    rw [if_pos rfl]
    refine wp_verify_words hin hfit rfl ?_ ?_
    · intro hall
      rw [first_unfit_eq_none hall] at h
      exact h
    · intro k hk hne hbefore
      rw [first_unfit_eq_some hk hne hbefore] at h
      exact h

end upload

end Host

end RiscvWorker

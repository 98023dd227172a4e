import SearchQuery.Proofs.Text.Words
import SearchQuery.Proofs.Token.Resolve

-- The dashes before a word: they can be taken off and put back.

namespace SearchQuery.Token

-- Text with a number of dashes put before it.
def dashed (n : Nat) (text : String) : String :=
  String.ofList (List.replicate n '-') ++ text

variable {text : String}

theorem toList_dashed (n : Nat) (text : String) :
    (dashed n text).toList = List.replicate n '-' ++ text.toList := by
  rw [dashed, String.toList_append, String.toList_ofList]

theorem dashed_zero (text : String) : dashed 0 text = text := by
  simp [dashed]

theorem dashed_succ (n : Nat) (text : String) : dashed (n + 1) text = dashed n ("-" ++ text) := by
  rw [← String.toList_inj, toList_dashed, toList_dashed, String.toList_append,
    List.replicate_succ', List.append_assoc]
  rfl

-- Taking the dashes off and putting them back changes nothing.
theorem dashed_dashes (text : String) : dashed (dashes text) (withoutDashes text) = text := by
  have hreplicate : List.replicate (dashes text) '-' =
      text.toList.takeWhile fun c => c == '-' := by
    refine (List.eq_replicate_of_mem fun c hc => ?_).symm
    simpa using List.all_eq_true.mp List.all_takeWhile c hc
  rw [← String.toList_inj, toList_dashed, hreplicate, withoutDashes, String.toList_ofList,
    List.takeWhile_append_dropWhile]

theorem withoutDashes_of_dashes_eq_zero (h : dashes text = 0) : withoutDashes text = text := by
  rw [← dashed_zero (withoutDashes text), ← h, dashed_dashes]

theorem dashes_dashed (n : Nat) (h : text.toList.head? ≠ some '-') :
    dashes (dashed n text) = n := by
  have hnone : (text.toList.takeWhile fun c => c == '-') = [] := by
    cases hcs : text.toList with
    | nil => rfl
    | cons c cs => simpa [hcs] using h
  rw [dashes, toList_dashed, List.takeWhile_append_of_pos (by simp), hnone, List.append_nil,
    List.length_replicate]

theorem withoutDashes_dashed (n : Nat) (h : text.toList.head? ≠ some '-') :
    withoutDashes (dashed n text) = text := by
  have hall : (text.toList.dropWhile fun c => c == '-') = text.toList := by
    cases hcs : text.toList with
    | nil => rfl
    | cons c cs => exact List.dropWhile_cons_of_neg (by simpa [hcs] using h)
  rw [withoutDashes, toList_dashed, List.dropWhile_append_of_pos (by simp), hall,
    String.ofList_toList]

theorem head?_withoutDashes (text : String) : (withoutDashes text).toList.head? ≠ some '-' := by
  rw [withoutDashes, String.toList_ofList]
  intro h
  have hhead := List.head?_dropWhile_not (fun c => c == '-') text.toList
  rw [h] at hhead
  simp at hhead

theorem mem_of_mem_withoutDashes {c : Char} (h : c ∈ (withoutDashes text).toList) :
    c ∈ text.toList := by
  rw [withoutDashes, String.toList_ofList] at h
  exact (List.dropWhile_sublist _).subset h

theorem isWord_withoutDashes (h : Text.IsWord text) (hne : withoutDashes text ≠ "") :
    Text.IsWord (withoutDashes text) :=
  ⟨hne, fun c hc => h.not_blank c (mem_of_mem_withoutDashes hc)⟩

theorem isWord_dashed (n : Nat) (h : Text.IsWord text) : Text.IsWord (dashed n text) := by
  constructor
  · rw [ne_eq, ← String.toList_eq_nil_iff, toList_dashed, List.append_eq_nil_iff,
      String.toList_eq_nil_iff]
    exact fun hnil => h.ne_empty hnil.2
  · intro c hc
    rw [toList_dashed, List.mem_append] at hc
    rcases hc with hc | hc
    · rw [List.eq_of_mem_replicate hc]
      rfl
    · exact h.not_blank c hc

-- A bar with dashes before it is a bar no more.
theorem isBar_negate_word :
    (negate (dashes text) (word (withoutDashes text))).isBar = true ↔ text = "|" := by
  cases hn : dashes text with
  | zero => rw [withoutDashes_of_dashes_eq_zero hn, negate, isBar, beq_iff_eq]
  | succ n =>
      refine ⟨fun h => absurd h (by simp [negate, isBar]), ?_⟩
      rintro rfl
      have hzero : dashes "|" = 0 := by decide
      omega

end SearchQuery.Token

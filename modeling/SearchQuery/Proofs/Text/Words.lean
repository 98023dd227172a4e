import Mathlib.Data.List.TakeWhile
import SearchQuery.Text.Blank

-- The words of text that is put together from pieces: pieces that have blanks between them
-- keep their words.

namespace SearchQuery.Text

section Characters

variable {b c : Char} {w : List Char}

theorem wordChars_nil : wordChars [] = [] := by
  rw [wordChars.eq_def]

theorem wordChars_cons_blank (h : isBlankChar b = true) (cs : List Char) :
    wordChars (b :: cs) = wordChars cs := by
  rw [wordChars.eq_def]
  exact if_pos h

theorem wordChars_cons_of_not_blank (h : isBlankChar c = false) (cs : List Char) :
    wordChars (c :: cs) =
      (c :: cs.takeWhile fun d => !isBlankChar d) ::
        wordChars (cs.dropWhile fun d => !isBlankChar d) := by
  rw [wordChars.eq_def]
  exact if_neg (by simp [h])

theorem takeWhile_append_blank (h : isBlankChar b = true) (cs ds : List Char) :
    (cs ++ b :: ds).takeWhile (fun d => !isBlankChar d) =
      cs.takeWhile fun d => !isBlankChar d := by
  induction cs with
  | nil => simp [h]
  | cons c cs ih => simp only [List.cons_append, List.takeWhile_cons, ih]

theorem dropWhile_append_blank (h : isBlankChar b = true) (cs ds : List Char) :
    (cs ++ b :: ds).dropWhile (fun d => !isBlankChar d) =
      (cs.dropWhile fun d => !isBlankChar d) ++ b :: ds := by
  induction cs with
  | nil => simp [h]
  | cons c cs ih =>
      cases hc : isBlankChar c with
      | true => simp [hc]
      | false => simpa [hc] using ih

-- A blank ends the word before it.
theorem wordChars_append_blank (h : isBlankChar b = true) (cs ds : List Char) :
    wordChars (cs ++ b :: ds) = wordChars cs ++ wordChars ds := by
  fun_induction wordChars cs with
  | case1 => exact wordChars_cons_blank h ds
  | case2 c cs hc ih => rw [List.cons_append, wordChars_cons_blank hc, ih]
  | case3 c cs hc ih =>
      rw [List.cons_append, wordChars_cons_of_not_blank (by simpa using hc),
        takeWhile_append_blank h, dropWhile_append_blank h, ih, List.cons_append]

-- Nothing runs on from one text into the next if a blank ends the first or begins the second.
theorem wordChars_append_of_getLast? {cs : List Char} (h : cs.getLast?.all isBlankChar = true)
    (ds : List Char) : wordChars (cs ++ ds) = wordChars cs ++ wordChars ds := by
  rcases List.eq_nil_or_concat cs with rfl | ⟨init, b, rfl⟩
  · rw [wordChars_nil, List.nil_append, List.nil_append]
  · have hb : isBlankChar b = true := by simpa using h
    rw [List.concat_eq_append, wordChars_append_blank hb, wordChars_nil, List.append_nil,
      List.append_assoc, List.singleton_append, wordChars_append_blank hb]

theorem wordChars_append_of_head? {ds : List Char} (h : ds.head?.all isBlankChar = true)
    (cs : List Char) : wordChars (cs ++ ds) = wordChars cs ++ wordChars ds := by
  cases ds with
  | nil => rw [wordChars_nil, List.append_nil, List.append_nil]
  | cons b ds =>
      have hb : isBlankChar b = true := h
      rw [wordChars_append_blank hb, wordChars_cons_blank hb]

theorem wordChars_of_not_blank (hne : w ≠ []) (h : ∀ c ∈ w, isBlankChar c = false) :
    wordChars w = [w] := by
  cases w with
  | nil => exact absurd rfl hne
  | cons c cs =>
      obtain ⟨hc, hcs⟩ := List.forall_mem_cons.mp h
      have htake : (cs.takeWhile fun d => !isBlankChar d) = cs :=
        List.takeWhile_eq_self_iff.mpr (by simpa using hcs)
      have hdrop : (cs.dropWhile fun d => !isBlankChar d) = [] :=
        List.dropWhile_eq_nil_iff.mpr (by simpa using hcs)
      rw [wordChars_cons_of_not_blank hc, htake, hdrop, wordChars_nil]

-- A word that begins with `c`.
theorem not_blank_of_mem_cons_takeWhile (h : isBlankChar c = false) (cs : List Char) :
    ∀ d ∈ c :: cs.takeWhile fun d => !isBlankChar d, isBlankChar d = false := by
  refine List.forall_mem_cons.mpr ⟨h, fun d hd => ?_⟩
  simpa using List.all_eq_true.mp List.all_takeWhile d hd

theorem not_blank_of_mem_wordChars {cs : List Char} (h : w ∈ wordChars cs) :
    w ≠ [] ∧ ∀ c ∈ w, isBlankChar c = false := by
  fun_induction wordChars cs with
  | case1 => cases h
  | case2 c cs hc ih => exact ih h
  | case3 c cs hc ih =>
      rcases List.mem_cons.mp h with rfl | h
      · exact ⟨List.cons_ne_nil _ _, not_blank_of_mem_cons_takeWhile (by simpa using hc) cs⟩
      · exact ih h

theorem wordChars_eq_nil_iff {cs : List Char} :
    wordChars cs = [] ↔ cs.all isBlankChar = true := by
  fun_induction wordChars cs with
  | case1 => simp
  | case2 c cs hc ih => rw [ih, List.all_cons, hc, Bool.true_and]
  | case3 c cs hc ih => simp [hc]

-- The words are what a split at the blanks leaves that is not empty.
theorem wordChars_eq_filter (cs : List Char) :
    wordChars cs = (cs.splitOnP isBlankChar).filter fun w => !w.isEmpty := by
  fun_induction wordChars cs with
  | case1 => rfl
  | case2 c cs hc ih =>
      rw [ih, List.splitOnP_cons_eq_if_modifyHead, if_pos hc]
      rfl
  | case3 c cs hc ih =>
      have hword := not_blank_of_mem_cons_takeWhile (Bool.eq_false_iff.mpr hc) cs
      have hwhole : c :: cs = (c :: cs.takeWhile fun d => !isBlankChar d) ++
          cs.dropWhile fun d => !isBlankChar d :=
        congrArg (c :: ·) List.takeWhile_append_dropWhile.symm
      rw [ih, hwhole]
      cases hrest : cs.dropWhile fun d => !isBlankChar d with
      | nil =>
          rw [List.append_nil, List.splitOnP_eq_singleton hword]
          rfl
      | cons b rest =>
          have hb : isBlankChar b = true := by
            simpa [hrest] using List.head?_dropWhile_not (fun d => !isBlankChar d) cs
          rw [List.splitOnP_append_cons_of_forall_mem hword b hb,
            List.splitOnP_cons_eq_if_modifyHead, if_pos hb]
          rfl

end Characters

-- A text that is one word.
structure IsWord (text : String) : Prop where
  ne_empty : text ≠ ""
  not_blank : ∀ c ∈ text.toList, isBlankChar c = false

instance (text : String) : Decidable (IsWord text) :=
  decidable_of_iff (text ≠ "" ∧ (text.toList.all fun c => !isBlankChar c) = true)
    ⟨fun ⟨hne, hall⟩ => ⟨hne, by simpa using hall⟩,
      fun h => ⟨h.ne_empty, by simpa using h.not_blank⟩⟩

theorem isBlank_of_isWord {text : String} (h : IsWord text) : isBlank text = false := by
  obtain ⟨c, hc⟩ :=
    List.exists_mem_of_ne_nil _ fun hnil => h.ne_empty (String.toList_eq_nil_iff.mp hnil)
  exact List.all_eq_false.mpr ⟨c, hc, by simp [h.not_blank c hc]⟩

theorem isWord_of_mem_words {text w : String} (h : w ∈ words text) : IsWord w := by
  obtain ⟨cs, hcs, rfl⟩ := List.mem_map.mp h
  obtain ⟨hne, hblank⟩ := not_blank_of_mem_wordChars hcs
  exact ⟨by simpa using hne, by simpa using hblank⟩

theorem words_of_isWord {text : String} (h : IsWord text) : words text = [text] := by
  have hne : text.toList ≠ [] := by simpa using h.ne_empty
  rw [words, wordChars_of_not_blank hne h.not_blank, List.map_singleton, String.ofList_toList]

-- Blank text has no words, and no other text has none.
theorem words_eq_nil_iff {text : String} : words text = [] ↔ isBlank text = true := by
  rw [words, List.map_eq_nil_iff, wordChars_eq_nil_iff, isBlank]

theorem words_empty : words "" = [] := by
  rw [words, String.toList_empty, wordChars_nil, List.map_nil]

theorem words_append_space (s t : String) : words (s ++ " " ++ t) = words s ++ words t := by
  have hchars : (s ++ " " ++ t).toList = s.toList ++ ' ' :: t.toList := by simp
  rw [words, hchars, wordChars_append_blank rfl, List.map_append]
  rfl

-- Texts between which a word stands by itself: there is a blank on either side of it, or
-- nothing at all.
structure Apart (before after : String) : Prop where
  before_end : before.toList.getLast?.all isBlankChar = true
  after_start : after.toList.head?.all isBlankChar = true

theorem words_append_of_apart {before after word : String} (h : Apart before after)
    (hword : IsWord word) :
    words (before ++ word ++ after) = words before ++ word :: words after := by
  rw [words, String.toList_append, String.toList_append, wordChars_append_of_head? h.after_start,
    wordChars_append_of_getLast? h.before_end, List.map_append, List.map_append]
  show words before ++ words word ++ words after = _
  rw [words_of_isWord hword, List.append_assoc, List.singleton_append]

theorem words_intercalate_space (texts : List String) :
    words (" ".intercalate texts) = texts.flatMap words := by
  induction texts with
  | nil => exact words_empty
  | cons text texts ih =>
      cases texts with
      | nil => simp
      | cons next rest =>
          rw [String.intercalate_cons_cons, words_append_space, ih]
          exact List.flatMap_cons.symm

-- A word of its own between each two texts.
theorem words_intercalate_word {mark : String} (h : IsWord mark) (texts : List String) :
    words ((" " ++ mark ++ " ").intercalate texts) = [mark].intercalate (texts.map words) := by
  induction texts with
  | nil => exact words_empty
  | cons text texts ih =>
      cases texts with
      | nil => simp
      | cons next rest =>
          have hsplit : words (text ++ (" " ++ mark ++ " ") ++
              (" " ++ mark ++ " ").intercalate (next :: rest)) =
              words text ++ [mark] ++ words ((" " ++ mark ++ " ").intercalate (next :: rest)) := by
            rw [← words_of_isWord h, ← words_append_space, ← words_append_space]
            simp only [String.append_assoc]
          rw [String.intercalate_cons_cons, hsplit, ih]
          exact List.intercalate_cons_cons.symm

end SearchQuery.Text

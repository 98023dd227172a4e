import SearchQuery.Json.Reader
import SearchQuery.Proofs.Json.Numbers

-- What is read from a text fits: its integers are those of a word and its floating-point numbers
-- are finite, also where the text breaks off.

namespace SearchQuery.Json

open SearchQuery.Numeral

section Numbers

variable {x y : Binary64} {e : Int} {word : Nat} {d : Document} {cs rest : List Char}

theorem takeDigits_lt (h : word < 0x10000000000000000) (ds : List Char) :
    (takeDigits word ds).1 < 0x10000000000000000 := by
  induction ds generalizing word with
  | nil => exact h
  | cons d ds ih =>
    simp only [takeDigits]
    split
    · next hfits => exact ih hfits
    · exact h

theorem le_magnitude_powerOfTen {k : Nat} (h : k ≤ 308) :
    1023 * Binary64.hiddenBit ≤ (powerOfTen k).magnitude := by
  have hpower : powerOfTen k = Binary64.ofRatio false (1 * 10 ^ k) 1 := by
    rw [powerOfTen, Binary64.ofDecimal, if_neg (by decide), if_neg (by omega), if_neg, if_neg]
    · rfl
    · omega
    · have hlog : Nat.log2 1 = 0 := by decide
      omega
  have hpos : 0 < 10 ^ k := Nat.pow_pos (by decide)
  rw [hpower, Binary64.magnitude_ofRatio]
  exact Binary64.le_nearestMagnitude (by decide) (by omega)

-- Dividing by a power of ten brings no number out of range, and multiplying is checked.
theorem isFinite_scaleByTen (hx : x.isFinite) (h : scaleByTen x e = some y) : y.isFinite := by
  fun_induction scaleByTen x e with
  | case1 | case5 =>
    cases h
    exact hx
  | case2 => cases h
  | case3 x e =>
    split at h
    · next hfinite =>
      cases h
      exact hfinite
    · cases h
  | case4 x e =>
    cases h
    exact Binary64.isFinite_div hx (le_magnitude_powerOfTen (by omega))
  | case6 x e _ _ _ _ ih =>
    exact ih (Binary64.isFinite_div hx (le_magnitude_powerOfTen (by decide))) h

theorem isFinite_withSign (negative : Bool) (h : x.isFinite) : (withSign negative x).isFinite := by
  rw [withSign]
  split
  · exact Binary64.isFinite_neg h
  · exact h

theorem isFinite_floatOf {t : NumberText} (h : floatOf t = some x) : x.isFinite := by
  have hword : (takeDigits (takeDigits 0 t.whole).1 t.fraction).1 < 0x10000000000000000 :=
    takeDigits_lt (takeDigits_lt (by decide) t.whole) t.fraction
  have hfinite := Binary64.isFinite_ofNat (Nat.le_of_lt hword)
  simp only [floatOf] at h
  split at h
  · obtain ⟨y, hy, rfl⟩ := Option.map_eq_some_iff.mp h
    exact isFinite_withSign t.negative (isFinite_scaleByTen hfinite hy)
  · split at h
    · split at h
      · cases h
      · cases h
        exact isFinite_withSign t.negative (Binary64.isFinite_ofNat (by decide))
    · obtain ⟨y, hy, rfl⟩ := Option.map_eq_some_iff.mp h
      exact isFinite_withSign t.negative (isFinite_scaleByTen hfinite hy)

theorem fits_numberOf {t : NumberText} (h : numberOf t = some d) : d.fits := by
  simp only [numberOf] at h
  split at h
  · next hword =>
    simp only [Bool.and_eq_true, decide_eq_true_eq] at hword
    split at h
    · cases h
      simp only [Document.fits, Bool.and_eq_true, decide_eq_true_eq]
      omega
    · split at h
      · next hrange =>
        cases h
        simp only [Bool.and_eq_true, decide_eq_true_eq] at hrange
        simp only [Document.fits, Bool.and_eq_true, decide_eq_true_eq]
        omega
      · cases h
        exact Binary64.isFinite_neg (Binary64.isFinite_ofNat (Nat.le_of_lt hword.2))
  · obtain ⟨x, hx, rfl⟩ := Option.map_eq_some_iff.mp h
    exact isFinite_floatOf hx

theorem forall_mem_bind {α β : Type} {P : β → Prop} {o : Option α} {f : α → Option β}
    (h : ∀ a, ∀ b ∈ f a, P b) : ∀ b ∈ o.bind f, P b := by
  intro b hb
  obtain ⟨a, _, hb⟩ := Option.bind_eq_some_iff.mp hb
  exact h a b hb

-- However a number is written, it comes from `numberOf` in the end.
theorem fits_readNumber (cs : List Char) : ∀ p ∈ readNumber cs, p.1.fits := by
  have hnumber : ∀ t (rest : List Char), ∀ p ∈ (numberOf t).bind fun d => pure (d, rest),
      p.1.fits := by
    intro t rest p hp
    obtain ⟨d, hd, hp⟩ := Option.bind_eq_some_iff.mp hp
    cases hp
    exact fits_numberOf hd
  unfold readNumber
  simp only [Option.bind_eq_bind]
  refine forall_mem_bind fun whole => ?_
  split
  · rintro p ⟨⟩
  · -- with a fraction or without, and then with an exponent or without
    split
    all_goals
      refine forall_mem_bind fun fraction => ?_
      split
      · split
        · split
          all_goals exact forall_mem_bind fun exponent => hnumber _ _
        · exact forall_mem_bind fun exponent => hnumber _ _
      · exact forall_mem_bind fun exponent => hnumber _ _

end Numbers

section Lexemes

def Lexeme.fits : Lexeme → Bool
  | .scalar d => d.fits
  | _ => true

variable {cs rest : List Char} {lexeme : Lexeme}

theorem fits_next (h : next cs = some (lexeme, rest)) : lexeme.fits := by
  unfold next at h
  split at h
  case h_7 =>
    obtain ⟨p, _, hp⟩ := Option.map_eq_some_iff.mp h
    cases hp
    rfl
  case h_11 =>
    obtain ⟨p, hnumber, hp⟩ := Option.map_eq_some_iff.mp h
    cases hp
    exact fits_readNumber cs p hnumber
  all_goals
    cases h
    rfl

theorem fits_lexemesUpTo (limit : Nat) (cs : List Char) :
    (lexemesUpTo limit cs).all Lexeme.fits := by
  induction limit generalizing cs with
  | zero => rfl
  | succ limit ih =>
    rw [lexemesUpTo]
    split
    · rfl
    · split
      · next lexeme rest hnext =>
        rw [List.all_cons, fits_next hnext, ih, Bool.and_true]
      · rfl

end Lexemes

section Containers

def Frame.fits : Frame → Bool
  | .array items => items.all Document.fits
  | .object members _ => members.all fun m => m.2.fits

def Progress.fits : Progress → Bool
  | .reading frames _ => frames.all Frame.fits
  | .whole d => d.fits
  | .broken d => d.fits

variable {d : Document} {frames : List Frame} {frame : Frame}

theorem fits_frame_breakOff (hd : d.fits) (hframe : frame.fits) : (frame.breakOff d).fits := by
  cases frame with
  | array items =>
    rw [Frame.breakOff, Document.fits_array, List.all_reverse, List.all_cons, hd]
    exact hframe
  | object members name =>
    cases name with
    | none =>
      rw [Frame.breakOff, Document.fits_object, List.all_reverse]
      exact hframe
    | some name =>
      rw [Frame.breakOff, Document.fits_object, List.all_reverse, List.all_cons, hd]
      exact hframe

theorem fits_breakOff (h : frames.all Frame.fits) : (breakOff frames).fits := by
  have hfold : ∀ d : Document, d.fits → (frames.foldl Frame.breakOff d).fits := by
    induction frames with
    | nil => exact fun d hd => hd
    | cons frame frames ih =>
      rw [List.all_cons, Bool.and_eq_true] at h
      exact fun d hd => ih h.2 _ (fits_frame_breakOff hd h.1)
  exact hfold .broken rfl

theorem fits_place (hd : d.fits) (h : frames.all Frame.fits) : (place d frames).fits := by
  cases frames with
  | nil => exact hd
  | cons frame frames =>
    have hcons := h
    rw [List.all_cons, Bool.and_eq_true] at hcons
    cases frame with
    | array items =>
      rw [place, Progress.fits, List.all_cons, Frame.fits, List.all_cons, hd, hcons.2,
        Bool.true_and, Bool.and_true]
      exact hcons.1
    | object members name =>
      cases name with
      | none => exact fits_breakOff h
      | some name =>
        rw [place, Progress.fits, List.all_cons, Frame.fits, List.all_cons, hd, hcons.2,
          Bool.true_and, Bool.and_true]
        exact hcons.1

theorem fits_push (hframe : frame.fits) (h : frames.all Frame.fits) (awaiting : Awaiting) :
    (push frame frames awaiting).fits := by
  rw [push]
  split
  · rw [Progress.fits, List.all_cons, hframe, h, Bool.and_true]
  · exact fits_breakOff h

theorem fits_stepValue {lexeme : Lexeme} (hlexeme : lexeme.fits) (h : frames.all Frame.fits) :
    (stepValue frames lexeme).fits := by
  cases lexeme with
  | beginArray => exact fits_push rfl h .itemOrEnd
  | beginObject => exact fits_push rfl h .nameOrEnd
  | string text => exact fits_place rfl h
  | scalar d => exact fits_place hlexeme h
  | _ => exact fits_breakOff h

theorem fits_stepName (lexeme : Lexeme) (h : frames.all Frame.fits) :
    (stepName frames lexeme).fits := by
  unfold stepName
  split
  · exact h
  · exact fits_breakOff h

theorem fits_stepEnd (lexeme : Lexeme) (h : frames.all Frame.fits) :
    (stepEnd frames lexeme).fits := by
  unfold stepEnd
  split
  · next items frames =>
    rw [List.all_cons, Bool.and_eq_true] at h
    exact fits_place (by rw [Document.fits_array, List.all_reverse]; exact h.1) h.2
  · next members name frames =>
    rw [List.all_cons, Bool.and_eq_true] at h
    exact fits_place (by rw [Document.fits_object, List.all_reverse]; exact h.1) h.2
  · exact fits_breakOff h

theorem fits_stepComma (h : frames.all Frame.fits) : (stepComma frames).fits := by
  unfold stepComma
  split
  · exact h
  · exact h
  · rfl

-- A lexeme is put into the innermost container or breaks off what there is.
theorem fits_step {progress : Progress} {lexeme : Lexeme} (hlexeme : lexeme.fits)
    (h : progress.fits) : (step progress lexeme).fits := by
  cases progress with
  | whole d => exact h
  | broken d => exact h
  | reading frames awaiting =>
    simp only [step]
    split
    · exact fits_stepValue hlexeme h
    · exact fits_stepEnd _ h
    · exact fits_stepValue hlexeme h
    · exact fits_stepEnd _ h
    · exact fits_stepName _ h
    · exact fits_stepName _ h
    · exact h
    · exact fits_breakOff h
    · exact fits_stepComma h
    · exact fits_stepEnd _ h

theorem fits_foldl_step {progress : Progress} {lexemes : List Lexeme}
    (hlexemes : lexemes.all Lexeme.fits) (h : progress.fits) :
    (lexemes.foldl step progress).fits := by
  induction lexemes generalizing progress with
  | nil => exact h
  | cons lexeme lexemes ih =>
    rw [List.all_cons, Bool.and_eq_true] at hlexemes
    exact ih hlexemes.2 (fits_step hlexemes.1 h)

-- Every text is read as a document that fits.
theorem fits_read (text : String) : (read text).document.fits := by
  have hfits : ((lexemes text).foldl step (.reading [] .value)).fits :=
    fits_foldl_step (fits_lexemesUpTo _ _) rfl
  rw [read]
  split
  · next hfold =>
    rw [hfold] at hfits
    exact hfits
  · next hfold =>
    rw [hfold] at hfits
    exact hfits
  · next hfold =>
    rw [hfold] at hfits
    exact fits_breakOff hfits

end Containers

end SearchQuery.Json

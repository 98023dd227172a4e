import SearchQuery.Proofs.Query.Grouped
import SearchQuery.Proofs.Query.Kinds
import SearchQuery.Proofs.Vocabulary

-- Whatever is registered can be asked for. The name of a kind, with a colon and a value or
-- without, is one word of a query, and the word is read as that kind.

namespace SearchQuery

section Names

variable {c : Char} {name rest : String}

theorem not_blank_of_isNameChar (h : isNameChar c = true) : Text.isBlankChar c = false := by
  have hrange : 45 ≤ c.toNat ∧ c.toNat ≤ 122 := by
    simp only [isNameChar, isNameStart, Char.isAlphanum, Char.isAlpha, Char.isUpper, Char.isLower,
      Char.isDigit, Bool.or_eq_true, Bool.and_eq_true, decide_eq_true_eq, beq_iff_eq, ge_iff_le,
      UInt32.le_iff_toNat_le] at h
    rcases h with ((((hupper | hlower) | hdigit) | rfl) | rfl) | rfl
    · have hupper : 65 ≤ c.toNat ∧ c.toNat ≤ 90 := hupper
      omega
    · have hlower : 97 ≤ c.toNat ∧ c.toNat ≤ 122 := hlower
      omega
    · have hdigit : 48 ≤ c.toNat ∧ c.toNat ≤ 57 := hdigit
      omega
    all_goals decide
  simp only [Text.isBlankChar, Bool.or_eq_false_iff, Bool.and_eq_false_iff, beq_eq_false_iff_ne,
    decide_eq_false_iff_not]
  omega

theorem toList_of_isKindName (h : isKindName name = true) :
    ∃ c cs, name.toList = c :: cs ∧ isNameStart c = true ∧ ∀ d ∈ c :: cs, isNameChar d = true := by
  unfold isKindName at h
  cases hname : name.toList with
  | nil =>
      rw [hname] at h
      cases h
  | cons c cs =>
      rw [hname] at h
      obtain ⟨hc, hcs⟩ := (Bool.and_eq_true _ _).mp h
      have hall : ∀ d ∈ c :: cs, isNameChar d = true :=
        List.forall_mem_cons.mpr ⟨by simp [isNameChar, hc], List.all_eq_true.mp hcs⟩
      exact ⟨c, cs, rfl, hc, hall⟩

-- With whatever comes after it, a name can stand in a query, and it is no bar.
theorem isPlain_of_isKindName (h : isKindName name = true)
    (hrest : ∀ c ∈ rest.toList, Text.isBlankChar c = false) :
    Token.IsPlain (name ++ rest) ∧ name ++ rest ≠ "|" := by
  obtain ⟨c, cs, hname, hstart, hchars⟩ := toList_of_isKindName h
  have hword : (name ++ rest).toList = c :: (cs ++ rest.toList) := by
    rw [String.toList_append, hname, List.cons_append]
  have hhead : ∀ {d : Char} {text : String}, text.toList = [d] → isNameStart d = false →
      name ++ rest ≠ text := by
    rintro d text htext hd rfl
    rw [hword] at htext
    obtain ⟨rfl, -⟩ := List.cons.inj htext
    rw [hstart] at hd
    cases hd
  refine ⟨⟨⟨?_, ?_⟩, ?_, hhead rfl (by decide), hhead rfl (by decide)⟩, hhead rfl (by decide)⟩
  · rw [ne_eq, ← String.toList_eq_nil_iff, hword]
    exact List.cons_ne_nil _ _
  · intro d hd
    rw [hword, ← List.cons_append, List.mem_append] at hd
    rcases hd with hd | hd
    · exact not_blank_of_isNameChar (hchars d hd)
    · exact hrest d hd
  · rw [hword, List.head?_cons]
    intro hdash
    cases hdash
    cases hstart

-- What the names of kinds exclude is what would keep a word from naming them.
theorem Vocabulary.names_of_build {v : Vocabulary} {kinds : List (String × Kind)} {kind : Kind}
    (hv : Vocabulary.build kinds = .ok v) (hget : v.get? name = some kind) : v.Names name kind := by
  obtain ⟨hreserved, hname⟩ := Vocabulary.name_of_build hv hget
  obtain ⟨c, cs, hchars, -, hall⟩ := toList_of_isKindName hname
  refine ⟨hget, ?_, fun hcolon => ?_, hreserved⟩
  · rw [Text.isBlank, hchars, List.all_cons, not_blank_of_isNameChar (hall c (by simp))]
    rfl
  · rw [hchars] at hcolon
    exact absurd (hall ':' hcolon) (by decide)

end Names

namespace Token

variable {text : String}

theorem read_dashed (h : IsPlain text) (hbar : text ≠ "|") (n : Nat) :
    Token.read (dashed n text) = .ok (some [negate n (word text)]) := by
  have hsolid : Solid (negate n (word text)) := solid_negate n (solid_of_wellFormed (.word h hbar))
  have hresolve := resolve_of_solid (List.forall_mem_singleton.mpr hsolid)
  exact read_of_reads (.dashed_word h n) hresolve (List.cons_ne_nil _ _)

end Token

namespace Condition

open Token (dashed)

variable {v : Vocabulary} {kinds : List (String × Kind)} {name rest text : String} {kind : Kind}
  {parse : ValueReader}

theorem ofToken_negate_word (v : Vocabulary) (n : Nat) (text : String) :
    ofToken v (Token.negate n (.word text)) = (ofWord v text).map (not^[n]) := by
  cases hword : ofWord v text with
  | ok c => exact ofToken_negate v n hword
  | error e =>
      induction n with
      | zero => exact hword
      | succ n ih =>
          rw [Token.negate, ofToken, ih]
          rfl

theorem ofQuery_dashed (h : Token.IsPlain text) (hbar : text ≠ "|") (n : Nat) :
    ofQuery v (dashed n text) = (ofWord v text).map fun c => some (not^[n] c) := by
  rw [ofQuery, Token.read_dashed h hbar]
  simp only [Except.bind, Token.gather_singleton, ofToken_negate_word]
  cases ofWord v text <;> rfl

-- A word that begins with the name of a kind is looked up as it stands.
theorem ofWord_append (hname : v.Names name kind)
    (hrest : rest = "" ∨ ∃ ignored, rest = ":" ++ ignored) :
    ofWord v (name ++ rest) = ofKindWord v (name ++ rest).toList ∧
      nameOf (name ++ rest).toList = name := by
  obtain ⟨hcut, hnot⟩ := cutAt_append_of_names hname hrest
  exact ⟨by rw [ofWord, ofWordChars.eq_2 v _ hnot], by rw [nameOf, hcut, String.ofList_toList]⟩

theorem ofWord_of_flag (hname : v.Names name kind) (hflag : kind.parse? = none)
    (hrest : rest = "" ∨ ∃ ignored, rest = ":" ++ ignored) :
    ofWord v (name ++ rest) = .ok (flag name) := by
  obtain ⟨hword, hnameOf⟩ := ofWord_append hname hrest
  rw [← hnameOf] at hname
  rw [hword, ofKindWord_of_flag hname hflag, hnameOf]

theorem valueOf?_name (hcolon : ':' ∉ name.toList) : valueOf? name.toList = none := by
  rw [valueOf?, Text.cutAt_of_not_mem hcolon]
  rfl

theorem valueOf?_append (hcolon : ':' ∉ name.toList) (text : String) :
    valueOf? (name ++ (":" ++ text)).toList =
      if Text.isBlank text then none else some text.toList := by
  have hchars : (name ++ (":" ++ text)).toList = name.toList ++ ':' :: text.toList := by simp
  rw [valueOf?, hchars, Text.cutAt_append_mark hcolon, Option.filter_some, Text.isBlank]
  cases text.toList.all Text.isBlankChar <;> rfl

theorem ofWord_of_no_value (hname : v.Names name kind) (hparse : kind.parse? = some parse)
    (hrest : rest = "" ∨ rest = ":") :
    ofWord v (name ++ rest) = .error (.missingValue (name ++ rest) name) := by
  have happend : rest = "" ∨ ∃ ignored, rest = ":" ++ ignored :=
    hrest.imp_right fun h => ⟨"", by simpa using h⟩
  have hnone : valueOf? (name ++ rest).toList = none := by
    rcases hrest with rfl | rfl
    · rw [String.append_empty, valueOf?_name hname.no_colon]
    · exact valueOf?_append hname.no_colon ""
  obtain ⟨hword, hnameOf⟩ := ofWord_append hname happend
  rw [← hnameOf] at hname
  rw [hword, ofKindWord_of_no_value hname hparse hnone, hnameOf, String.ofList_toList]

theorem ofWord_of_value (hname : v.Names name kind) (hparse : kind.parse? = some parse)
    (htext : Text.isBlank text = false) :
    ofWord v (name ++ (":" ++ text)) =
      match parse text with
      | .ok value => .ok (leaf name value)
      | .error cause => .error (.invalidValue (name ++ (":" ++ text)) cause) := by
  have hvalue := valueOf?_append hname.no_colon text
  rw [htext] at hvalue
  obtain ⟨hword, hnameOf⟩ := ofWord_append hname (.inr ⟨text, rfl⟩)
  rw [← hnameOf] at hname
  have hkind := ofKindWord_of_value hname hparse hvalue
  rw [hnameOf, String.ofList_toList, String.ofList_toList] at hkind
  rw [hword]
  exact hkind

section Followed

-- A name may stand alone or be followed by a colon, with a value or without.

theorem eq_empty_or_of_mem (h : rest ∈ ["", ":", ":" ++ text]) :
    rest = "" ∨ ∃ ignored, rest = ":" ++ ignored := by
  simp only [List.mem_cons, List.not_mem_nil, or_false] at h
  rcases h with rfl | rfl | rfl
  · exact .inl rfl
  · exact .inr ⟨"", rfl⟩
  · exact .inr ⟨text, rfl⟩

theorem not_blank_of_mem (htext : Text.IsWord text) (h : rest ∈ ["", ":", ":" ++ text]) :
    ∀ c ∈ rest.toList, Text.isBlankChar c = false := by
  intro c hc
  simp only [List.mem_cons, List.not_mem_nil, or_false] at h
  rcases h with rfl | rfl | rfl
  · cases hc
  · obtain rfl : c = ':' := by simpa using hc
    rfl
  · rw [String.toList_append, List.mem_append] at hc
    rcases hc with hc | hc
    · obtain rfl : c = ':' := by simpa using hc
      rfl
    · exact htext.not_blank c hc

end Followed

-- Whatever kinds a vocabulary is built from, each of them can be asked for by its name,
-- under any number of dashes. A flag takes no notice of a value. Any other kind needs one,
-- and a word for it is what its reader makes of the value.
theorem ofQuery_of_registered (hv : Vocabulary.build kinds = .ok v)
    (hget : v.get? name = some kind) (n : Nat) (htext : Text.IsWord text) :
    (∀ rest ∈ ["", ":", ":" ++ text],
        Token.read (dashed n (name ++ rest)) =
          .ok (some [Token.negate n (.word (name ++ rest))])) ∧
      (kind.parse? = none → ∀ rest ∈ ["", ":", ":" ++ text],
        ofQuery v (dashed n (name ++ rest)) = .ok (some (not^[n] (flag name)))) ∧
      ∀ parse, kind.parse? = some parse →
        (∀ value, parse text = .ok value →
          ofQuery v (dashed n (name ++ (":" ++ text))) = .ok (some (not^[n] (leaf name value)))) ∧
        (∀ cause, parse text = .error cause →
          ofQuery v (dashed n (name ++ (":" ++ text))) =
            .error (.invalidValue (name ++ (":" ++ text)) cause)) ∧
        ∀ rest ∈ ["", ":"],
          ofQuery v (dashed n (name ++ rest)) = .error (.missingValue (name ++ rest) name) := by
  have hname := Vocabulary.names_of_build hv hget
  have hplain : ∀ rest ∈ ["", ":", ":" ++ text],
      Token.IsPlain (name ++ rest) ∧ name ++ rest ≠ "|" := fun rest hrest =>
    isPlain_of_isKindName (Vocabulary.name_of_build hv hget).2 (not_blank_of_mem htext hrest)
  have hquery : ∀ rest ∈ ["", ":", ":" ++ text],
      ofQuery v (dashed n (name ++ rest)) = (ofWord v (name ++ rest)).map fun c => some (not^[n] c) :=
    fun rest hrest => ofQuery_dashed (hplain rest hrest).1 (hplain rest hrest).2 n
  refine ⟨fun rest hrest => ?_, fun hflag rest hrest => ?_, fun parse hparse => ⟨?_, ?_, ?_⟩⟩
  · exact Token.read_dashed (hplain rest hrest).1 (hplain rest hrest).2 n
  · rw [hquery rest hrest, ofWord_of_flag hname hflag (eq_empty_or_of_mem hrest)]
    rfl
  · intro value hvalue
    rw [hquery _ (by simp), ofWord_of_value hname hparse (Text.isBlank_of_isWord htext), hvalue]
    rfl
  · intro cause hcause
    rw [hquery _ (by simp), ofWord_of_value hname hparse (Text.isBlank_of_isWord htext), hcause]
    rfl
  · intro rest hrest
    simp only [List.mem_cons, List.not_mem_nil, or_false] at hrest
    have hmem : rest ∈ ["", ":", ":" ++ text] := by
      rcases hrest with rfl | rfl <;> simp
    rw [hquery rest hmem, ofWord_of_no_value hname hparse hrest]
    rfl

-- A flag whose name has all sorts of characters, and a kind whose values are integers.
theorem ofQuery_of_registered_dashes :
    let kinds := [("_b.2-", Kind.flag), ("not-n", Kind.ofCodec .int)]
    let v : Vocabulary :=
      ⟨(NameMap.empty.insert "_b.2-" Kind.flag).insert "not-n" (Kind.ofCodec .int)⟩
    Vocabulary.build kinds = .ok v ∧ v.get? "_b.2-" = some Kind.flag ∧ Text.IsWord "(:-" ∧
      Kind.flag.parse? = none ∧
      ofQuery v "--_b.2-:(:-" = .ok (some (not (not (flag "_b.2-")))) ∧
      v.get? "not-n" = some (Kind.ofCodec .int) ∧ Text.IsWord "+7" ∧
      ofQuery v "-not-n:+7" = .ok (some (not (leaf "not-n" (.integer 7)))) ∧
      ofQuery v "-not-n:(:-" = .error (.invalidValue "not-n:(:-" (.notANumber "(:-")) ∧
      ofQuery v "-not-n:" = .error (.missingValue "not-n:" "not-n") := by
  intro kinds v
  have hv : Vocabulary.build kinds = .ok v := by rfl
  have hb : v.get? "_b.2-" = some Kind.flag := by rfl
  have hn : v.get? "not-n" = some (Kind.ofCodec .int) := by rfl
  have hodd : Text.IsWord "(:-" := by decide
  have hseven : Text.IsWord "+7" := by decide
  obtain ⟨-, hflag, -⟩ := ofQuery_of_registered hv hb 2 hodd
  obtain ⟨-, -, hread⟩ := ofQuery_of_registered hv hn 1 hseven
  obtain ⟨-, -, hrefused⟩ := ofQuery_of_registered hv hn 1 hodd
  obtain ⟨hvalue, -, hmissing⟩ := hread Codec.int.parse rfl
  obtain ⟨-, hinvalid, -⟩ := hrefused Codec.int.parse rfl
  refine ⟨hv, hb, hodd, rfl, hflag rfl (":" ++ "(:-") (by simp), hn, hseven, ?_, ?_, ?_⟩
  · exact hvalue (.integer 7) (by rfl)
  · exact hinvalid (.notANumber "(:-") (by rfl)
  · exact hmissing ":" (by simp)

end Condition

end SearchQuery

import Mathlib
import SearchQuery.Proofs.Token.Dashes
import SearchQuery.Proofs.Token.Reading

-- Tokens written as a query. The tokens that a query can have are the well-formed ones, and
-- each list of them is what its written form is read as.

namespace SearchQuery.Token

-- Text between the brackets of a group.
def bracketed (text : String) : String :=
  "( " ++ text ++ " )"

mutual

-- The text of a token. The dash of a negation stands directly before what it negates.
def write : Token → String
  | word text => text
  | negated token => "-" ++ write token
  | group tokens => bracketed (" ".intercalate (writeAll tokens))
  | choice branches => bracketed (" | ".intercalate (writeAll branches))

def writeAll : List Token → List String
  | [] => []
  | token :: tokens => write token :: writeAll tokens

end

theorem writeAll_eq_map (tokens : List Token) : writeAll tokens = tokens.map write := by
  induction tokens with
  | nil => rfl
  | cons token tokens ih => rw [writeAll, ih, List.map_cons]

def writeQuery (tokens : List Token) : String :=
  " ".intercalate (writeAll tokens)

-- The text of a word as it can stand in a query without a dash.
structure IsPlain (text : String) : Prop extends Text.IsWord text where
  no_dash : text.toList.head? ≠ some '-'
  not_open : text ≠ "("
  not_close : text ≠ ")"

instance (text : String) : Decidable (IsPlain text) :=
  decidable_of_iff
    (Text.IsWord text ∧ text.toList.head? ≠ some '-' ∧ text ≠ "(" ∧ text ≠ ")")
    ⟨fun ⟨hword, hdash, hopen, hclose⟩ => ⟨hword, hdash, hopen, hclose⟩,
      fun h => ⟨h.toIsWord, h.no_dash, h.not_open, h.not_close⟩⟩

-- The tokens that a query can have. A bar is a word under a negation only, and a group or
-- a choice has two or more members.
inductive WellFormed : Token → Prop
  | word {text : String} (h : IsPlain text) (hbar : text ≠ "|") : WellFormed (word text)
  | negatedWord {text : String} (h : IsPlain text) : WellFormed (negated (.word text))
  | negated {token : Token} (h : WellFormed token) : WellFormed (negated token)
  | group {tokens : List Token} (hlen : 2 ≤ tokens.length) (h : ∀ t ∈ tokens, WellFormed t) :
      WellFormed (group tokens)
  | choice {branches : List Token} (hlen : 2 ≤ branches.length)
      (h : ∀ t ∈ branches, WellFormed t) : WellFormed (choice branches)

section Image

variable {text : String} {words : List String} {found ts : List Token} {t : Token}

theorem isPlain_withoutDashes (h : Text.IsWord text) (htext : IsText text)
    (hne : withoutDashes text ≠ "") : IsPlain (withoutDashes text) where
  toIsWord := isWord_withoutDashes h hne
  no_dash := head?_withoutDashes text
  not_open := htext.1
  not_close := htext.2

theorem wellFormed_negate (h : WellFormed t) (n : Nat) : WellFormed (negate n t) := by
  induction n with
  | zero => exact h
  | succ n ih => exact .negated ih

theorem wellFormed_negate_word (h : IsPlain text) {n : Nat}
    (hbar : (negate n (word text)).isBar = false) : WellFormed (negate n (word text)) := by
  induction n with
  | zero => exact .word h (by simpa [negate, isBar] using hbar)
  | succ n ih =>
      cases n with
      | zero => exact .negatedWord h
      | succ n => exact .negated (ih rfl)

theorem wellFormed_gather (hne : ts ≠ []) (h : ∀ t ∈ ts, WellFormed t) : WellFormed (gather ts) :=
  gather_of_forall hne h fun hlen => .group hlen h

-- What a level keeps of what is read from words is well-formed.
theorem Reads.wellFormed (h : Reads words found) (hwords : ∀ w ∈ words, Text.IsWord w) :
    ∀ t ∈ found, t.looksEmpty = false → t.isBar = false → WellFormed t := by
  induction h with
  | nil => exact List.forall_mem_nil _
  | @text text words tokens htext after ih =>
      obtain ⟨hword, hwords⟩ := List.forall_mem_cons.mp hwords
      refine List.forall_mem_cons.mpr ⟨fun hfull hbar => ?_, ih hwords⟩
      rw [looksEmpty_negate] at hfull
      have hne : withoutDashes text ≠ "" := by
        intro hnil
        rw [hnil] at hfull
        exact absurd hfull (by decide)
      exact wellFormed_negate_word (isPlain_withoutDashes hword htext hne) hbar
  | @group text inner words found resolved tokens hopen inside hresolve after ihinside ihafter =>
      obtain ⟨hinner, hafter⟩ := forall_mem_of_group hwords
      refine List.forall_mem_cons.mpr ⟨fun hfull _ => ?_, ihafter hafter⟩
      rw [looksEmpty_negate] at hfull
      have hne : resolved ≠ [] := by
        rintro rfl
        exact absurd hfull (by decide)
      have hresolved : ∀ t ∈ resolved, WellFormed t :=
        forall_mem_of_resolve hresolve (ihinside hinner) (fun _ => .group) (fun _ => .choice)
      exact wellFormed_negate (wellFormed_gather hne hresolved) _

end Image

section Writing

variable {text : String} {found ts : List Token} {t : Token}

theorem solid_of_wellFormed (h : WellFormed t) : Solid t := by
  have hne : ∀ us : List Token, 2 ≤ us.length → us ≠ [] := fun us hlen =>
    List.ne_nil_of_length_pos (by omega)
  induction h with
  | word h hbar =>
      have hfull := Text.isBlank_of_isWord h.toIsWord
      exact ⟨hfull, hfull, by simpa [isBar] using hbar⟩
  | negatedWord h =>
      have hfull := Text.isBlank_of_isWord h.toIsWord
      exact ⟨hfull, hfull, rfl⟩
  | negated h ih => exact solid_negate 1 ih
  | group hlen h ih => exact solid_group (hne _ hlen) ih
  | choice hlen h ih => exact solid_choice (hne _ hlen) ih

theorem negate_negated (n : Nat) (t : Token) : negate n (negated t) = negate (n + 1) t := by
  induction n with
  | zero => rfl
  | succ n ih => exact congrArg negated ih

theorem isWord_open : Text.IsWord "(" := by
  decide

theorem isWord_close : Text.IsWord ")" := by
  decide

theorem isWord_bar : Text.IsWord "|" := by
  decide

theorem words_dashed_bracketed (n : Nat) (text : String) :
    Text.words (dashed n (bracketed text)) = dashed n "(" :: (Text.words text ++ [")"]) := by
  have hsplit : dashed n (bracketed text) = dashed n "(" ++ " " ++ text ++ " " ++ ")" := by
    simp only [dashed, bracketed, String.append_assoc]
    rfl
  rw [hsplit, Text.words_append_space, Text.words_append_space,
    Text.words_of_isWord (isWord_dashed n isWord_open), Text.words_of_isWord isWord_close,
    List.append_assoc, List.singleton_append]

-- What a text is read as, the text in brackets is read as with the tokens gathered.
theorem Reads.bracketed (h : Reads (Text.words text) found) (hresolve : resolve found = .ok ts)
    (n : Nat) : Reads (Text.words (dashed n (bracketed text))) [negate n (gather ts)] := by
  have hopen : withoutDashes (dashed n "(") = "(" := withoutDashes_dashed n (by decide)
  have hdashes : dashes (dashed n "(") = n := dashes_dashed n (by decide)
  have hgroup := Reads.group hopen h hresolve .nil
  rwa [hdashes, ← words_dashed_bracketed] at hgroup

theorem isText_dashed (h : IsPlain text) (n : Nat) : IsText (dashed n text) := by
  rw [IsText, withoutDashes_dashed n h.no_dash]
  exact ⟨h.not_open, h.not_close⟩

theorem Reads.dashed_word (h : IsPlain text) (n : Nat) :
    Reads (Text.words (dashed n text)) [negate n (word text)] := by
  have hone := Reads.singleton (isText_dashed h n)
  rwa [withoutDashes_dashed n h.no_dash, dashes_dashed n h.no_dash,
    ← Text.words_of_isWord (isWord_dashed n h.toIsWord)] at hone

section Lists

variable {texts : List String} {tokens : List Token}

-- Texts that are read as one token each, with blanks between them.
theorem Reads.spaced (h : List.Forall₂ (fun text t => Reads (Text.words text) [t]) texts tokens) :
    Reads (Text.words (" ".intercalate texts)) tokens := by
  have hlists : List.Forall₂ Reads (texts.map Text.words) (tokens.map ([·])) := by
    simpa using h
  have hjoin : (tokens.map ([·])).flatten = tokens := by
    rw [← List.flatMap_def, List.flatMap_singleton']
  have hread := Reads.flatten hlists
  rwa [hjoin, ← List.flatMap_def, ← Text.words_intercalate_space] at hread

-- Texts that are read as one token each, with bars between them.
theorem Reads.barred (h : List.Forall₂ (fun text t => Reads (Text.words text) [t]) texts tokens) :
    Reads (Text.words (" | ".intercalate texts)) ([bar].intercalate (tokens.map ([·]))) := by
  have hlists : List.Forall₂ Reads (texts.map Text.words) (tokens.map ([·])) := by
    simpa using h
  have hread := Reads.intercalate hlists
  rwa [← Text.words_intercalate_word isWord_bar] at hread

theorem resolve_barred (hlen : 2 ≤ tokens.length) (h : ∀ t ∈ tokens, Solid t) :
    resolve ([bar].intercalate (tokens.map ([·]))) = .ok [choice tokens] := by
  rw [resolve_intercalate (by simpa using hlen) (by simpa using h), List.map_map]
  simp [Function.comp_def, gather]

end Lists

-- Texts and what they are read as, one by one.
theorem forall₂_writeAll (h : ∀ t ∈ ts, ∀ n, Reads (Text.words (dashed n (write t))) [negate n t]) :
    List.Forall₂ (fun text t => Reads (Text.words text) [t]) (writeAll ts) ts := by
  rw [writeAll_eq_map, List.forall₂_map_left_iff, List.forall₂_same]
  intro t ht
  have hread := h t ht 0
  rwa [dashed_zero] at hread

theorem reads_write (h : WellFormed t) (n : Nat) :
    Reads (Text.words (dashed n (write t))) [negate n t] := by
  induction h generalizing n with
  | word h hbar => exact .dashed_word h n
  | negatedWord h =>
      rw [write, ← dashed_succ, negate_negated]
      exact .dashed_word h (n + 1)
  | negated h ih =>
      rw [write, ← dashed_succ, negate_negated]
      exact ih (n + 1)
  | @group tokens hlen h ih =>
      have hmembers := Reads.spaced (forall₂_writeAll ih)
      have hsolid : ∀ t ∈ tokens, Solid t := fun t ht => solid_of_wellFormed (h t ht)
      have hgroup := hmembers.bracketed (resolve_of_solid hsolid) n
      rwa [gather_of_two_le hlen] at hgroup
  | @choice branches hlen h ih =>
      have hbranches := Reads.barred (forall₂_writeAll ih)
      have hsolid : ∀ t ∈ branches, Solid t := fun t ht => solid_of_wellFormed (h t ht)
      exact hbranches.bracketed (resolve_barred hlen hsolid) n

end Writing

-- The tokens of a query are well-formed, and well-formed tokens are those of the query
-- that they are written as.
theorem wellFormed_and_read_writeQuery :
    (∀ query ts, Token.read query = .ok (some ts) → ∀ t ∈ ts, WellFormed t) ∧
      ∀ ts, ts ≠ [] → (∀ t ∈ ts, WellFormed t) → Token.read (writeQuery ts) = .ok (some ts) := by
  refine ⟨fun query ts h => ?_, fun ts hne h => ?_⟩
  · obtain ⟨-, found, hread, hresolve⟩ := read_eq_ok.mp h
    have hkept := hread.wellFormed fun w hw => Text.isWord_of_mem_words hw
    exact forall_mem_of_resolve hresolve hkept (fun _ => .group) (fun _ => .choice)
  · have hread : Reads (Text.words (writeQuery ts)) ts :=
      .spaced (forall₂_writeAll fun t ht n => reads_write (h t ht) n)
    have hsolid : ∀ t ∈ ts, Solid t := fun t ht => solid_of_wellFormed (h t ht)
    exact read_of_reads hread (resolve_of_solid hsolid) hne

theorem wellFormed_and_read_writeQuery_nested :
    let ts := [choice [negated (group [word "a", negated (word "|")]), word "(b"], word "c"]
    writeQuery ts = "( -( a -| ) | (b ) c" ∧ (∀ t ∈ ts, WellFormed t) ∧
      Token.read (writeQuery ts) = .ok (some ts) := by
  intro ts
  have ha : WellFormed (word "a") := .word (by decide) (by decide)
  have hb : WellFormed (word "(b") := .word (by decide) (by decide)
  have hc : WellFormed (word "c") := .word (by decide) (by decide)
  have hbar : WellFormed (negated (word "|")) := .negatedWord (by decide)
  have hgroup : WellFormed (group [word "a", negated (word "|")]) :=
    .group (by decide) (List.forall_mem_cons.mpr ⟨ha, List.forall_mem_singleton.mpr hbar⟩)
  have hchoice : WellFormed (choice [negated (group [word "a", negated (word "|")]), word "(b"]) :=
    .choice (by decide)
      (List.forall_mem_cons.mpr ⟨hgroup.negated, List.forall_mem_singleton.mpr hb⟩)
  have hts : ∀ t ∈ ts, WellFormed t :=
    List.forall_mem_cons.mpr ⟨hchoice, List.forall_mem_singleton.mpr hc⟩
  exact ⟨by cbv, hts, wellFormed_and_read_writeQuery.2 ts (by simp [ts]) hts⟩

end SearchQuery.Token

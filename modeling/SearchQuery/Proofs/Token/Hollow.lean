import SearchQuery.Proofs.Token.Texts

-- Queries that hold no term: they are made of dashes and of groups that hold no term either.
-- These are the queries without tokens.

namespace SearchQuery.Token

-- Words that are dashes only, or the brackets of groups of such words.
inductive Hollow : List String → Prop
  | nil : Hollow []
  | dashes {text : String} {words : List String} (h : withoutDashes text = "")
      (rest : Hollow words) : Hollow (text :: words)
  | group {text : String} {inner words : List String} (h : withoutDashes text = "(")
      (inside : Hollow inner) (rest : Hollow words) : Hollow (text :: (inner ++ ")" :: words))

variable {words : List String} {found ts : List Token} {text query : String}

theorem kept_eq_nil_iff : kept found = [] ↔ ∀ t ∈ found, t.looksEmpty = true := by
  simp [kept, List.filter_eq_nil_iff]

-- A level comes to nothing if all in it is empty, and not through a bar.
theorem resolve_eq_nil_iff : resolve found = .ok [] ↔ kept found = [] := by
  constructor
  · intro h
    rcases eq_of_resolve h with ⟨hkept, -⟩ | ⟨parts, -, -, -, hchoice⟩
    · exact hkept.symm
    · exact absurd hchoice (List.cons_ne_nil _ _).symm
  · intro h
    have hsplit : (kept found).splitOnP isBar = [[]] := by simp [h]
    rw [resolve_of_split_singleton hsplit, h]

theorem Reads.hollow (h : Reads words found) (hwords : ∀ w ∈ words, Text.IsWord w)
    (hempty : ∀ t ∈ found, t.looksEmpty = true) : Hollow words := by
  induction h with
  | nil => exact .nil
  | @text text words tokens htext after ih =>
      obtain ⟨hword, hwords⟩ := List.forall_mem_cons.mp hwords
      obtain ⟨hfirst, hrest⟩ := List.forall_mem_cons.mp hempty
      rw [looksEmpty_negate] at hfirst
      exact .dashes ((isBlank_withoutDashes hword).mp hfirst) (ih hwords hrest)
  | @group text inner words found resolved tokens hopen inside hresolve after ihinside ihafter =>
      obtain ⟨hinner, hafter⟩ := forall_mem_of_group hwords
      obtain ⟨hfirst, hrest⟩ := List.forall_mem_cons.mp hempty
      rw [looksEmpty_negate] at hfirst
      have hnil : resolved = [] := by
        by_contra hne
        have hsolid := solid_gather hne (inside.solid hresolve)
        rw [hsolid.looks_full] at hfirst
        cases hfirst
      subst hnil
      have hinside := kept_eq_nil_iff.mp (resolve_eq_nil_iff.mp hresolve)
      exact .group hopen (ihinside hinner hinside) (ihafter hafter hrest)

theorem Hollow.exists_reads (h : Hollow words) :
    ∃ found, Reads words found ∧ ∀ t ∈ found, t.looksEmpty = true := by
  induction h with
  | nil => exact ⟨[], .nil, List.forall_mem_nil _⟩
  | @dashes text words hdashes rest ih =>
      obtain ⟨found, hreads, hempty⟩ := ih
      have htext : IsText text := by
        rw [IsText, hdashes]
        decide
      refine ⟨_, .text htext hreads, List.forall_mem_cons.mpr ⟨?_, hempty⟩⟩
      rw [looksEmpty_negate, hdashes]
      rfl
  | @group text inner words hopen inside rest ihinside ihrest =>
      obtain ⟨hidden, hinner, hinside⟩ := ihinside
      obtain ⟨found, hreads, hempty⟩ := ihrest
      have hresolve := resolve_eq_nil_iff.mpr (kept_eq_nil_iff.mpr hinside)
      refine ⟨_, .group hopen hinner hresolve hreads, List.forall_mem_cons.mpr ⟨?_, hempty⟩⟩
      rw [looksEmpty_negate]
      rfl

-- A hollow query forms groups as it should, and there is no token in them.
theorem hollow_iff :
    Hollow (Text.words query) ↔
      Token.read query = .ok none ∨ Token.read query = .ok (some []) := by
  constructor
  · intro h
    obtain ⟨found, hreads, hempty⟩ := h.exists_reads
    rw [read_eq_none, read_eq_ok]
    by_cases hblank : Text.words query = []
    · exact .inl hblank
    · exact .inr ⟨hblank, found, hreads, resolve_eq_nil_iff.mpr (kept_eq_nil_iff.mpr hempty)⟩
  · rintro (hnone | hnil)
    · rw [read_eq_none.mp hnone]
      exact .nil
    · obtain ⟨-, found, hreads, hresolve⟩ := read_eq_ok.mp hnil
      have hempty := kept_eq_nil_iff.mp (resolve_eq_nil_iff.mp hresolve)
      exact hreads.hollow (fun w hw => Text.isWord_of_mem_words hw) hempty

theorem Hollow.terms_eq_nil (h : Hollow words) : terms words = [] := by
  rw [terms, List.map_eq_nil_iff, List.filter_eq_nil_iff]
  induction h with
  | nil => exact List.forall_mem_nil _
  | dashes h rest ih => exact List.forall_mem_cons.mpr ⟨by simp [isTerm, h], ih⟩
  | group h inside rest ihinside ih =>
      have hclose : ¬isTerm ")" = true := by decide
      refine List.forall_mem_cons.mpr ⟨by simp [isTerm, h], ?_⟩
      exact List.forall_mem_append.mpr ⟨ihinside, List.forall_mem_cons.mpr ⟨hclose, ih⟩⟩

-- A query that is not hollow holds a term, unless its bars are wrong.
theorem hollow_iff_terms {tokens? : Option (List Token)} (h : Token.read query = .ok tokens?) :
    Hollow (Text.words query) ↔ terms (Text.words query) = [] := by
  refine ⟨Hollow.terms_eq_nil, fun hterms => ?_⟩
  rw [hollow_iff, h]
  cases tokens? with
  | none => exact .inl rfl
  | some ts =>
      obtain ⟨-, found, hreads, hresolve⟩ := read_eq_ok.mp h
      have hsolid := hreads.solid hresolve
      have htexts := textsAll_of_read h
      rw [hterms, textsAll_eq_flatMap, List.flatMap_eq_nil_iff] at htexts
      have hnil : ts = [] := List.eq_nil_iff_forall_not_mem.mpr fun t ht =>
        texts_ne_nil_of_full (hsolid t ht).full (htexts t ht)
      exact .inr (by rw [hnil])

end SearchQuery.Token

import SearchQuery.Token.Scan
import SearchQuery.Proofs.Text.Pieces

-- What the tokens of a level come to: the empty ones are gone, and the bars have turned
-- what stands between them into a choice.

namespace SearchQuery.Token

-- The mark between branches.
def bar : Token :=
  word "|"

theorem isBar_iff {t : Token} : t.isBar = true ↔ t = bar := by
  cases t <;> simp [isBar, bar]

section Gather

variable {ts : List Token}

theorem gather_of_two_le (h : 2 ≤ ts.length) : gather ts = group ts := by
  match ts, h with
  | _ :: _ :: _, _ => rfl

-- What holds of some tokens, and of a group of two or more, holds of what they gather to.
theorem gather_of_forall {P : Token → Prop} (hne : ts ≠ []) (h : ∀ t ∈ ts, P t)
    (hgroup : 2 ≤ ts.length → P (group ts)) : P (gather ts) := by
  match ts, hne with
  | [t], _ => exact h t (List.mem_singleton_self t)
  | _ :: _ :: _, _ => exact hgroup (by simp)

end Gather

section Parts

variable {parts : List (List Token)}

-- Bars cut a level into parts without bars, and put between the parts they give the level.
theorem exists_parts (tokens : List Token) :
    ∃ part parts, tokens.splitOnP isBar = part :: parts ∧
      tokens = [bar].intercalate (part :: parts) ∧
      ∀ p ∈ part :: parts, ∀ t ∈ p, t.isBar = false := by
  obtain ⟨part, parts, hsplit⟩ := List.exists_cons_of_ne_nil (List.splitOnP_ne_nil isBar tokens)
  have hparts := (Text.splitOnP_eq_iff (fun _ => isBar_iff) (by simp)).mp hsplit
  exact ⟨part, parts, hsplit, hparts⟩

theorem mem_intercalate {p : List Token} {t : Token} (hp : p ∈ parts) (ht : t ∈ p) :
    t ∈ [bar].intercalate parts := by
  induction parts with
  | nil => cases hp
  | cons q parts ih =>
      cases parts with
      | nil => simpa [← List.mem_singleton.mp hp] using ht
      | cons r parts =>
          rw [List.intercalate_cons_cons, List.mem_append, List.mem_append]
          rcases List.mem_cons.mp hp with rfl | hp
          · exact .inl (.inl ht)
          · exact .inr (ih hp)

theorem eq_bar_or_mem_of_mem_intercalate {t : Token} (h : t ∈ [bar].intercalate parts) :
    t = bar ∨ ∃ p ∈ parts, t ∈ p := by
  induction parts with
  | nil => cases h
  | cons q parts ih =>
      cases parts with
      | nil => exact .inr ⟨q, List.mem_singleton_self q, by simpa using h⟩
      | cons r parts =>
          rw [List.intercalate_cons_cons, List.mem_append, List.mem_append] at h
          rcases h with (h | h) | h
          · exact .inr ⟨q, List.mem_cons_self, h⟩
          · exact .inl (List.mem_singleton.mp h)
          · exact (ih h).imp_right fun ⟨p, hp, ht⟩ => ⟨p, List.mem_cons_of_mem q hp, ht⟩

-- No part is empty, neither before a bar nor after the last one.
theorem forall_ne_nil_iff (hne : parts ≠ []) :
    (∀ p ∈ parts, p ≠ []) ↔
      parts.dropLast.any List.isEmpty = false ∧ (parts.getLast?.getD []).isEmpty = false := by
  obtain ⟨init, last, rfl⟩ : ∃ init last, parts = init ++ [last] :=
    ⟨_, _, (List.dropLast_concat_getLast hne).symm⟩
  simp [or_imp, forall_and]

end Parts

-- The tokens that count at a level.
def kept (tokens : List Token) : List Token :=
  tokens.filter fun t => !t.looksEmpty

theorem mem_kept {t : Token} {tokens : List Token} :
    t ∈ kept tokens ↔ t ∈ tokens ∧ t.looksEmpty = false := by
  simp [kept]

section Resolve

variable {tokens ts : List Token} {parts : List (List Token)}

theorem resolve_of_split_singleton {part : List Token}
    (h : (kept tokens).splitOnP isBar = [part]) : resolve tokens = .ok (kept tokens) := by
  unfold resolve
  rw [kept] at h
  simp only [h]
  rfl

theorem resolve_of_split (h : (kept tokens).splitOnP isBar = parts) (hlen : 2 ≤ parts.length) :
    resolve tokens =
      if parts.dropLast.any List.isEmpty then .error .orWithoutLeft
      else if (parts.getLast?.getD []).isEmpty then .error .orWithoutRight
      else .ok [choice (parts.map gather)] := by
  obtain ⟨p, q, rest, rfl⟩ : ∃ p q rest, parts = p :: q :: rest := by
    match parts, hlen with
    | p :: q :: rest, _ => exact ⟨p, q, rest, rfl⟩
  unfold resolve
  rw [kept] at h
  simp only [h]

-- A level comes to its tokens if it has no bar, and to one choice between its parts, none
-- of them empty, if it has.
theorem eq_of_resolve (h : resolve tokens = .ok ts) :
    (ts = kept tokens ∧ ∀ t ∈ ts, t.isBar = false) ∨
      ∃ parts, kept tokens = [bar].intercalate parts ∧ 2 ≤ parts.length ∧
        (∀ p ∈ parts, p ≠ [] ∧ ∀ t ∈ p, t.isBar = false) ∧ ts = [choice (parts.map gather)] := by
  obtain ⟨part, parts, hsplit, hwhole, hbars⟩ := exists_parts (kept tokens)
  cases parts with
  | nil =>
      rw [resolve_of_split_singleton hsplit] at h
      cases h
      rw [List.intercalate_singleton] at hwhole
      exact .inl ⟨rfl, by simpa [← hwhole] using hbars⟩
  | cons q parts =>
      right
      have hne := forall_ne_nil_iff (List.cons_ne_nil part (q :: parts))
      rw [resolve_of_split hsplit (by simp)] at h
      split at h
      · cases h
      next hleft =>
        split at h
        · cases h
        next hright =>
          cases h
          have hfull := hne.mpr ⟨eq_false_of_ne_true hleft, eq_false_of_ne_true hright⟩
          exact ⟨_, hwhole, by simp, fun p hp => ⟨hfull p hp, hbars p hp⟩, rfl⟩

-- What holds of the tokens that count, and of a group or a choice whenever it holds of two
-- or more tokens in it, holds of what a level comes to.
theorem forall_mem_of_resolve {P : Token → Prop} (h : resolve tokens = .ok ts)
    (hkept : ∀ t ∈ tokens, t.looksEmpty = false → t.isBar = false → P t)
    (hgroup : ∀ us, 2 ≤ us.length → (∀ u ∈ us, P u) → P (group us))
    (hchoice : ∀ us, 2 ≤ us.length → (∀ u ∈ us, P u) → P (choice us)) : ∀ t ∈ ts, P t := by
  have hcount : ∀ t ∈ kept tokens, t.isBar = false → P t := fun t ht =>
    hkept t (mem_kept.mp ht).1 (mem_kept.mp ht).2
  rcases eq_of_resolve h with ⟨rfl, hbars⟩ | ⟨parts, hwhole, hlen, hparts, rfl⟩
  · exact fun t ht => hcount t ht (hbars t ht)
  · rw [hwhole] at hcount
    rw [List.forall_mem_singleton]
    apply hchoice _ (by simpa using hlen)
    rw [List.forall_mem_map]
    intro p hp
    have hpart : ∀ t ∈ p, P t := fun t ht =>
      hcount t (mem_intercalate hp ht) ((hparts p hp).2 t ht)
    exact gather_of_forall (hparts p hp).1 hpart fun htwo => hgroup p htwo hpart

end Resolve

-- A token that a level keeps: it is empty neither at one glance nor in depth, and no bar.
structure Solid (t : Token) : Prop where
  full : t.isEmpty = false
  looks_full : t.looksEmpty = false
  not_bar : t.isBar = false

section Solid

variable {t : Token} {tokens ts : List Token} {parts : List (List Token)}

theorem allEmpty_of_solid (hne : ts ≠ []) (h : ∀ t ∈ ts, Solid t) : allEmpty ts = false := by
  obtain ⟨t, ht⟩ := List.exists_mem_of_ne_nil ts hne
  rw [allEmpty_eq_all, List.all_eq_false]
  exact ⟨t, ht, by simp [(h t ht).full]⟩

theorem solid_group (hne : ts ≠ []) (h : ∀ t ∈ ts, Solid t) : Solid (group ts) :=
  ⟨allEmpty_of_solid hne h, by simpa [looksEmpty] using hne, rfl⟩

theorem solid_choice (hne : ts ≠ []) (h : ∀ t ∈ ts, Solid t) : Solid (choice ts) :=
  ⟨allEmpty_of_solid hne h, by simpa [looksEmpty] using hne, rfl⟩

theorem solid_gather (hne : ts ≠ []) (h : ∀ t ∈ ts, Solid t) : Solid (gather ts) :=
  gather_of_forall hne h fun _ => solid_group hne h

theorem solid_negate (n : Nat) (h : Solid t) : Solid (negate n t) := by
  refine ⟨(isEmpty_negate n t).trans h.full, (looksEmpty_negate n t).trans h.looks_full, ?_⟩
  cases n with
  | zero => exact h.not_bar
  | succ n => rfl

-- The look at one glance is right about what a level comes to if it is right about the
-- tokens of the level.
theorem solid_of_resolve (h : resolve tokens = .ok ts)
    (hlook : ∀ t ∈ tokens, t.looksEmpty = t.isEmpty) : ∀ t ∈ ts, Solid t := by
  have hne : ∀ us : List Token, 2 ≤ us.length → us ≠ [] := fun us hlen =>
    List.ne_nil_of_length_pos (by omega)
  exact forall_mem_of_resolve h
    (fun t ht hfull hbar => ⟨(hlook t ht).symm.trans hfull, hfull, hbar⟩)
    (fun us hlen => solid_group (hne us hlen)) (fun us hlen => solid_choice (hne us hlen))

theorem looksEmpty_negate_word (n : Nat) (text : String) :
    (negate n (word text)).looksEmpty = (negate n (word text)).isEmpty := by
  rw [looksEmpty_negate, isEmpty_negate]
  rfl

theorem looksEmpty_negate_gather (n : Nat) (h : ∀ t ∈ ts, Solid t) :
    (negate n (gather ts)).looksEmpty = (negate n (gather ts)).isEmpty := by
  rw [looksEmpty_negate, isEmpty_negate]
  cases ts with
  | nil => rfl
  | cons t ts =>
      have hsolid := solid_gather (List.cons_ne_nil t ts) h
      rw [hsolid.looks_full, hsolid.full]

theorem kept_of_solid (h : ∀ t ∈ ts, Solid t) : kept ts = ts :=
  List.filter_eq_self.mpr fun t ht => by simp [(h t ht).looks_full]

-- Tokens that count and have no bar among them are what they come to.
theorem resolve_of_solid (h : ∀ t ∈ ts, Solid t) : resolve ts = .ok ts := by
  have hsplit : (kept ts).splitOnP isBar = [ts] := by
    rw [kept_of_solid h]
    exact List.splitOnP_eq_singleton fun t ht => (h t ht).not_bar
  rw [resolve_of_split_singleton hsplit, kept_of_solid h]

-- Parts with bars between them come to a choice.
theorem resolve_intercalate (hlen : 2 ≤ parts.length)
    (h : ∀ p ∈ parts, p ≠ [] ∧ ∀ t ∈ p, Solid t) :
    resolve ([bar].intercalate parts) = .ok [choice (parts.map gather)] := by
  have hne : parts ≠ [] := List.ne_nil_of_length_pos (by omega)
  have hkept : kept ([bar].intercalate parts) = [bar].intercalate parts := by
    refine List.filter_eq_self.mpr fun t ht => ?_
    rcases eq_bar_or_mem_of_mem_intercalate ht with rfl | ⟨p, hp, htp⟩
    · decide
    · simp [((h p hp).2 t htp).looks_full]
  have hsplit : (kept ([bar].intercalate parts)).splitOnP isBar = parts := by
    rw [hkept]
    exact Text.splitOnP_intercalate rfl hne fun p hp t ht => ((h p hp).2 t ht).not_bar
  obtain ⟨hleft, hright⟩ := (forall_ne_nil_iff hne).mp fun p hp => (h p hp).1
  rw [resolve_of_split hsplit hlen, hleft, hright]
  rfl

end Solid

end SearchQuery.Token

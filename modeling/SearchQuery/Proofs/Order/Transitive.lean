import SearchQuery.Proofs.Order.Oriented

-- When the order of conditions is transitive. It has two ways to find lists of operands
-- level, and they do not agree: lists that hold the same operands are level in any
-- arrangement, and other lists of one length are as their first operands are. On
-- conditions that operands stay among, the order is a total preorder exactly if no third
-- list lies between two arrangements of the same operands.

namespace SearchQuery.Condition

-- Two arrangements of the same operands, one with the lower first operand `l` and one with
-- the higher `h`, and a list of other operands whose first operand `b` lies between.
inductive Straddle (v : Vocabulary) : List Condition → List Condition → List Condition → Prop
  | intro {l h b : Condition} {ls hs bs : List Condition}
      (same : sameElements (equal v) (l :: ls) (h :: hs) = true)
      (other : sameElements (equal v) (h :: hs) (b :: bs) = false)
      (length : hs.length = bs.length) (lt : compare v l h = .lt)
      (low : compare v l b ≠ .gt) (high : compare v b h ≠ .gt) :
      Straddle v (l :: ls) (h :: hs) (b :: bs)

-- Some conditions straddle another one of them.
def Straddled (v : Vocabulary) (S : Condition → Prop) : Prop :=
  ∃ low high between, Straddle v low high between ∧
    (S (and low) ∧ S (and high) ∧ S (and between) ∨ S (or low) ∧ S (or high) ∧ S (or between))

section Lists

variable {v : Vocabulary} {P : Condition → Prop} {a b c : Condition} {as bs cs : List Condition}

theorem compareOperands_of_same (h : sameElements (equal v) as bs = true) :
    compareOperands (orders v as) bs = .eq := by
  rw [compareOperands_orders, if_pos h]

theorem compareOperands_of_length_ne (h : as.length ≠ bs.length) :
    compareOperands (orders v as) bs = Ord.compare as.length bs.length := by
  have hsame : sameElements (equal v) as bs ≠ true := fun hs => h (length_of_sameElements hs)
  rw [compareOperands_orders, if_neg hsame, if_neg h]

theorem compareOperands_of_other (hlen : as.length = bs.length)
    (h : sameElements (equal v) (a :: as) (b :: bs) = false) :
    compareOperands (orders v (a :: as)) (b :: bs) = compare v a b := by
  rw [compareOperands_orders, if_neg (by simp [h]), if_pos (by simp [hlen])]

theorem length_le_of_compareOperands (h : compareOperands (orders v as) bs ≠ .gt) :
    as.length ≤ bs.length := by
  by_contra hlt
  rw [compareOperands_of_length_ne (by omega)] at h
  exact h (Nat.compare_eq_gt.mpr (by omega))

theorem sameElements_equal_symm (hP : OrientedOn (compare v) P) (ha : ∀ a ∈ as, P a)
    (hb : ∀ b ∈ bs, P b) : sameElements (equal v) as bs = sameElements (equal v) bs as :=
  sameElements_equal_comm fun a hma b hmb => hP.swap a b (ha a hma) (hb b hmb)

-- Where the order of operands is a total preorder, what is level with a common operand is
-- level, so matchings can be joined.
theorem sameElements_equal_trans (hP : PreorderOn (compare v) P) (ha : ∀ a ∈ as, P a)
    (hb : ∀ b ∈ bs, P b) (hc : ∀ c ∈ cs, P c) (hab : sameElements (equal v) as bs = true)
    (hbc : sameElements (equal v) bs cs = true) : sameElements (equal v) as cs = true := by
  let Level := fun a b => P a ∧ P b ∧ compare v a b = .eq
  have : IsTrans Condition Level :=
    ⟨fun a b c hab hbc => ⟨hab.1, hbc.2.1, hP.eq_trans hab.1 hab.2.1 hbc.2.1 hab.2.2 hbc.2.2⟩⟩
  have hab' : Multiset.Rel Level (as : Multiset Condition) (bs : Multiset Condition) :=
    (rel_of_sameElements hab).mono fun a hma b hmb h =>
      ⟨ha a (by simpa using hma), hb b (by simpa using hmb), equal_iff.mp h⟩
  have hbc' : Multiset.Rel Level (bs : Multiset Condition) (cs : Multiset Condition) :=
    (rel_of_sameElements hbc).mono fun b hmb c hmc h =>
      ⟨hb b (by simpa using hmb), hc c (by simpa using hmc), equal_iff.mp h⟩
  refine sameElements_of_rel ?_ ((hab'.trans Level hbc').mono fun a _ c _ h => equal_iff.mpr h.2.2)
  intro a hma a' hma' c hmc c' hmc' hac' hac ha'c
  rw [equal_iff] at hac' hac ha'c ⊢
  have hca := hP.eq_symm (ha a hma) (hc c hmc) hac
  have hcc' := hP.eq_trans (hc c hmc) (ha a hma) (hc c' hmc') hca hac'
  exact hP.eq_trans (ha a' hma') (hc c hmc) (hc c' hmc') ha'c hcc'

-- Only a middle list that holds the same operands as one neighbour and not as the other can
-- break the chain. The other neighbour then lies between the two arrangements.
theorem compareOperands_cons_trans (hP : PreorderOn (compare v) P) (ha : ∀ x ∈ a :: as, P x)
    (hb : ∀ x ∈ b :: bs, P x) (hc : ∀ x ∈ c :: cs, P x)
    (hlab : as.length = bs.length) (hlbc : bs.length = cs.length)
    (hleft : ¬Straddle v (b :: bs) (a :: as) (c :: cs))
    (hright : ¬Straddle v (c :: cs) (b :: bs) (a :: as))
    (hab : compareOperands (orders v (a :: as)) (b :: bs) ≠ .gt)
    (hbc : compareOperands (orders v (b :: bs)) (c :: cs) ≠ .gt) :
    compareOperands (orders v (a :: as)) (c :: cs) ≠ .gt := by
  have hPa := ha a (by simp)
  have hPb := hb b (by simp)
  have hPc := hc c (by simp)
  cases hsac : sameElements (equal v) (a :: as) (c :: cs) with
  | true => simp [compareOperands_of_same hsac]
  | false =>
      rw [compareOperands_of_other (hlab.trans hlbc) hsac]
      cases hsab : sameElements (equal v) (a :: as) (b :: bs) with
      | true =>
          cases hsbc : sameElements (equal v) (b :: bs) (c :: cs) with
          | true => simp [sameElements_equal_trans hP ha hb hc hsab hsbc] at hsac
          | false =>
              rw [compareOperands_of_other hlbc hsbc] at hbc
              intro hgt
              have hca := hP.lt_of_gt hPa hPc hgt
              have hba := hP.lt_of_le_of_lt hPb hPc hPa hbc hca
              rw [sameElements_equal_symm hP.toOrientedOn ha hb] at hsab
              exact hleft (.intro hsab hsac (hlab.trans hlbc) hba hbc (by simp [hca]))
      | false =>
          rw [compareOperands_of_other hlab hsab] at hab
          cases hsbc : sameElements (equal v) (b :: bs) (c :: cs) with
          | true =>
              intro hgt
              have hca := hP.lt_of_gt hPa hPc hgt
              have hcb := hP.lt_of_lt_of_le hPc hPa hPb hca hab
              rw [sameElements_equal_symm hP.toOrientedOn hb hc] at hsbc
              rw [sameElements_equal_symm hP.toOrientedOn ha hb] at hsab
              exact hright (.intro hsbc hsab hlab.symm hcb (by simp [hca]) hab)
          | false =>
              rw [compareOperands_of_other hlbc hsbc] at hbc
              exact hP.trans a b c hPa hPb hPc hab hbc

theorem compareOperands_trans (hP : PreorderOn (compare v) P) (ha : ∀ a ∈ as, P a)
    (hb : ∀ b ∈ bs, P b) (hc : ∀ c ∈ cs, P c)
    (hleft : ¬Straddle v bs as cs) (hright : ¬Straddle v cs bs as)
    (hab : compareOperands (orders v as) bs ≠ .gt) (hbc : compareOperands (orders v bs) cs ≠ .gt) :
    compareOperands (orders v as) cs ≠ .gt := by
  have hlab := length_le_of_compareOperands hab
  have hlbc := length_le_of_compareOperands hbc
  by_cases hlac : as.length = cs.length
  · cases as with
    | nil =>
        obtain rfl : cs = [] := List.length_eq_zero_iff.mp hlac.symm
        have hnil : sameElements (equal v) [] [] = true := rfl
        simp [compareOperands_of_same hnil]
    | cons a as =>
        cases bs with
        | nil => simp at hlab
        | cons b bs =>
            cases cs with
            | nil => simp at hlac
            | cons c cs =>
                simp only [List.length_cons] at hlab hlbc hlac
                exact compareOperands_cons_trans hP ha hb hc (by omega) (by omega) hleft hright
                  hab hbc
  · rw [compareOperands_of_length_ne hlac]
    simp only [ne_eq, Nat.compare_eq_gt]
    omega

-- The other direction: the two arrangements are level, and so are all three if the third
-- is neither above the one nor below the other. But it begins differently from one.
theorem not_trans_of_straddle (hP : PreorderOn (compare v) P) (ha : ∀ a ∈ as, P a)
    (hb : ∀ b ∈ bs, P b) (hc : ∀ c ∈ cs, P c) (h : Straddle v as bs cs) :
    (compareOperands (orders v bs) as ≠ .gt ∧ compareOperands (orders v as) cs ≠ .gt ∧
      compareOperands (orders v bs) cs = .gt) ∨
    (compareOperands (orders v cs) bs ≠ .gt ∧ compareOperands (orders v bs) as ≠ .gt ∧
      compareOperands (orders v cs) as = .gt) := by
  obtain ⟨same, other, length, lt, low, high⟩ := h
  rename_i a b c as bs cs
  have hPa := ha a (by simp)
  have hPb := hb b (by simp)
  have hPc := hc c (by simp)
  have hlen := length_of_sameElements same
  simp only [List.length_cons, Nat.add_right_cancel_iff] at hlen
  have hsba : sameElements (equal v) (b :: bs) (a :: as) = true :=
    (sameElements_equal_symm hP.toOrientedOn hb ha).trans same
  have hsac : sameElements (equal v) (a :: as) (c :: cs) = false := by
    by_contra hac
    rw [Bool.not_eq_false] at hac
    rw [sameElements_equal_trans hP hb ha hc hsba hac] at other
    cases other
  have hscb : sameElements (equal v) (c :: cs) (b :: bs) = false :=
    (sameElements_equal_symm hP.toOrientedOn hc hb).trans other
  have hsca : sameElements (equal v) (c :: cs) (a :: as) = false :=
    (sameElements_equal_symm hP.toOrientedOn hc ha).trans hsac
  rw [compareOperands_of_same hsba, compareOperands_of_other (hlen.trans length) hsac,
    compareOperands_of_other length other, compareOperands_of_other length.symm hscb,
    compareOperands_of_other (hlen.trans length).symm hsca]
  cases hcb : compare v c b with
  | lt => exact .inl ⟨by simp, low, hP.gt_of_lt hPc hPb hcb⟩
  | eq =>
      have hac := hP.lt_of_lt_of_le hPa hPb hPc lt (by simp [hP.eq_symm hPc hPb hcb])
      exact .inr ⟨by simp, by simp, hP.gt_of_lt hPa hPc hac⟩
  | gt => exact absurd hcb high

end Lists

section Conditions

variable {v : Vocabulary} {S T : Condition → Prop} {a b c : Condition}

-- The place of each form of condition in the order.
def rank : Condition → Nat
  | leaf _ _ => 0
  | and _ => 1
  | not _ => 2
  | or _ => 3

theorem compare_of_rank_ne (h : a.rank ≠ b.rank) :
    compare v a b = Ord.compare a.rank b.rank := by
  cases a <;> cases b <;> try exact absurd rfl h
  all_goals
    simp only [compare, name, rank]
    decide

theorem rank_le_of_compare (h : compare v a b ≠ .gt) : a.rank ≤ b.rank := by
  by_contra hlt
  rw [compare_of_rank_ne (by omega)] at h
  exact h (Nat.compare_eq_gt.mpr (by omega))

theorem compare_kinds_of_compare {k l : String} {x y : Value}
    (h : compare v (leaf k x) (leaf l y) ≠ .gt) : Ord.compare k l ≠ .gt := by
  by_cases hkl : k = l
  · subst hkl
    simp
  · simpa [compare, hkl] using h

theorem compare_leaf_trans {k l m : String} {x y z : Value}
    (hleaf : ∀ kind, PreorderOn (v.compareValues kind) fun x => S (leaf kind x))
    (hx : S (leaf k x)) (hy : S (leaf l y)) (hz : S (leaf m z))
    (hxy : compare v (leaf k x) (leaf l y) ≠ .gt) (hyz : compare v (leaf l y) (leaf m z) ≠ .gt) :
    compare v (leaf k x) (leaf m z) ≠ .gt := by
  have hkinds : PreorderOn (@Ord.compare String _) fun _ => True := preorderOn_ord _
  have hkl := compare_kinds_of_compare hxy
  have hlm := compare_kinds_of_compare hyz
  by_cases hkm : k = m
  · subst hkm
    obtain rfl : k = l :=
      Std.LawfulEqOrd.eq_of_compare (hkinds.eq_of_le_of_le trivial trivial hkl hlm)
    simp only [compare, if_true] at hxy hyz ⊢
    exact (hleaf k).trans x y z hx hy hz hxy hyz
  · simp only [compare, hkm, if_false]
    exact hkinds.trans k l m trivial trivial trivial hkl hlm

theorem Straddled.mono (h : Straddled v T) (hT : ∀ c, T c → S c) : Straddled v S := by
  obtain ⟨low, high, between, hs, hn⟩ := h
  refine ⟨low, high, between, hs, ?_⟩
  rcases hn with ⟨h₁, h₂, h₃⟩ | ⟨h₁, h₂, h₃⟩
  · exact .inl ⟨hT _ h₁, hT _ h₂, hT _ h₃⟩
  · exact .inr ⟨hT _ h₁, hT _ h₂, hT _ h₃⟩

-- Operands are smaller than what they are operands of, so a claim about conditions can
-- be proved one level of size after the other.
theorem operands_level (hS : Hereditary S) {n : Nat} (hc : S c ∧ sizeOf c < n + 1) :
    ∀ o ∈ c.operands, S o ∧ sizeOf o < n := by
  intro o ho
  have hlt := sizeOf_operand ho
  have hle := hc.2
  exact ⟨hS c hc.1 o ho, by omega⟩

theorem preorderOn_compare_succ (hS : Hereditary S)
    (hleaf : ∀ kind, PreorderOn (v.compareValues kind) fun x => S (leaf kind x)) (n : Nat)
    (ih : PreorderOn (compare v) fun c => S c ∧ sizeOf c < n)
    (hst : ¬Straddled v fun c => S c ∧ sizeOf c < n + 1) :
    PreorderOn (compare v) fun c => S c ∧ sizeOf c < n + 1 := by
  have hor := oriented_compare hS fun kind => (hleaf kind).toOrientedOn
  refine ⟨hor.mono fun _ h => h.1, fun a b c ha hb hc hab hbc => ?_⟩
  have hopa := operands_level hS ha
  have hopb := operands_level hS hb
  have hopc := operands_level hS hc
  have hrab := rank_le_of_compare hab
  have hrbc := rank_le_of_compare hbc
  by_cases hrac : a.rank = c.rank
  · have hrab' : a.rank = b.rank := by omega
    cases a with
    | not a =>
        cases b with
        | not b =>
            cases c with
            | not c =>
                exact ih.trans a b c (hopa a (by simp [operands])) (hopb b (by simp [operands]))
                  (hopc c (by simp [operands])) hab hbc
            | _ => simp [rank] at hrac
        | _ => simp [rank] at hrab'
    | and as =>
        cases b with
        | and bs =>
            cases c with
            | and cs =>
                exact compareOperands_trans ih hopa hopb hopc
                  (fun h => hst ⟨bs, as, cs, h, .inl ⟨hb, ha, hc⟩⟩)
                  (fun h => hst ⟨cs, bs, as, h, .inl ⟨hc, hb, ha⟩⟩) hab hbc
            | _ => simp [rank] at hrac
        | _ => simp [rank] at hrab'
    | or as =>
        cases b with
        | or bs =>
            cases c with
            | or cs =>
                exact compareOperands_trans ih hopa hopb hopc
                  (fun h => hst ⟨bs, as, cs, h, .inr ⟨hb, ha, hc⟩⟩)
                  (fun h => hst ⟨cs, bs, as, h, .inr ⟨hc, hb, ha⟩⟩) hab hbc
            | _ => simp [rank] at hrac
        | _ => simp [rank] at hrab'
    | leaf k x =>
        cases b with
        | leaf l y =>
            cases c with
            | leaf m z => exact compare_leaf_trans hleaf ha.1 hb.1 hc.1 hab hbc
            | _ => simp [rank] at hrac
        | _ => simp [rank] at hrab'
  · rw [compare_of_rank_ne hrac]
    simp only [ne_eq, Nat.compare_eq_gt]
    omega

-- It is enough that no level straddles if the one below it is in a total preorder.
theorem preorderOn_compare_of_levels (hS : Hereditary S)
    (hleaf : ∀ kind, PreorderOn (v.compareValues kind) fun x => S (leaf kind x))
    (hstep : ∀ n, (PreorderOn (compare v) fun c => S c ∧ sizeOf c < n) →
      ¬Straddled v fun c => S c ∧ sizeOf c < n + 1) : PreorderOn (compare v) S := by
  have hlevel : ∀ n, PreorderOn (compare v) fun c => S c ∧ sizeOf c < n := by
    intro n
    induction n with
    | zero => exact preorderOn_of_eq fun _ _ ha _ => absurd ha.2 (Nat.not_lt_zero _)
    | succ n ih => exact preorderOn_compare_succ hS hleaf n ih (hstep n ih)
  refine ⟨oriented_compare hS fun kind => (hleaf kind).toOrientedOn, fun a b c ha hb hc => ?_⟩
  apply (hlevel (sizeOf a + sizeOf b + sizeOf c + 1)).trans a b c
  · exact ⟨ha, by omega⟩
  · exact ⟨hb, by omega⟩
  · exact ⟨hc, by omega⟩

theorem preorderOn_compare (hS : Hereditary S)
    (hleaf : ∀ kind, PreorderOn (v.compareValues kind) fun x => S (leaf kind x))
    (hst : ¬Straddled v S) : PreorderOn (compare v) S := by
  apply preorderOn_compare_of_levels hS hleaf
  intro n _ h
  exact hst (h.mono fun _ hc => hc.1)

theorem not_straddled_of_trans (hS : Hereditary S)
    (hleaf : ∀ kind, PreorderOn (v.compareValues kind) fun x => S (leaf kind x))
    (htrans : ∀ a b c, S a → S b → S c →
      compare v a b ≠ .gt → compare v b c ≠ .gt → compare v a c ≠ .gt) :
    ¬Straddled v S := by
  have hP : PreorderOn (compare v) S :=
    ⟨oriented_compare hS fun kind => (hleaf kind).toOrientedOn, htrans⟩
  rintro ⟨low, high, between, hs, ⟨hl, hh, hb⟩ | ⟨hl, hh, hb⟩⟩
  · rcases not_trans_of_straddle hP (hS _ hl) (hS _ hh) (hS _ hb) hs with
      ⟨h₁, h₂, h₃⟩ | ⟨h₁, h₂, h₃⟩
    · exact htrans _ _ _ hh hl hb h₁ h₂ h₃
    · exact htrans _ _ _ hb hh hl h₁ h₂ h₃
  · rcases not_trans_of_straddle hP (hS _ hl) (hS _ hh) (hS _ hb) hs with
      ⟨h₁, h₂, h₃⟩ | ⟨h₁, h₂, h₃⟩
    · exact htrans _ _ _ hh hl hb h₁ h₂ h₃
    · exact htrans _ _ _ hb hh hl h₁ h₂ h₃

-- A condition lists no operand that is below its first one.
def LeastFirst (v : Vocabulary) (c : Condition) : Prop :=
  ∀ first, c.operands.head? = some first → ∀ o ∈ c.operands, compare v first o ≠ .gt

-- Arrangements that both begin with a least operand begin alike.
theorem not_straddle_of_leastFirst (hP : PreorderOn (compare v) T) {low high between : List Condition}
    (hl : ∀ o ∈ low, T o) (hh : ∀ o ∈ high, T o)
    (hfirst : ∀ h, high.head? = some h → ∀ o ∈ high, compare v h o ≠ .gt) :
    ¬Straddle v low high between := by
  rintro ⟨same, -, -, lt, -, -⟩
  rename_i l h b ls hs bs
  -- the first operand of the lower arrangement has a partner in the higher one
  obtain ⟨o, ho, hlo⟩ := Multiset.exists_mem_of_rel_of_mem (rel_of_sameElements same)
    (Multiset.mem_coe.mpr List.mem_cons_self)
  rw [Multiset.mem_coe] at ho
  rw [equal_iff] at hlo
  have hlt := hP.lt_of_lt_of_le (hl l (by simp)) (hh h (by simp)) (hh o ho) lt (hfirst h rfl o ho)
  simp [hlo] at hlt

-- Conditions that begin with a least operand at every depth are in a total preorder.
theorem preorderOn_of_leastFirst (hS : Hereditary S)
    (hleaf : ∀ kind, PreorderOn (v.compareValues kind) fun x => S (leaf kind x))
    (hfirst : ∀ c, S c → LeastFirst v c) : PreorderOn (compare v) S := by
  apply preorderOn_compare_of_levels hS hleaf
  rintro n ih ⟨low, high, between, hs, ⟨hl, hh, -⟩ | ⟨hl, hh, -⟩⟩
  · exact not_straddle_of_leastFirst ih (operands_level hS hl) (operands_level hS hh)
      (hfirst _ hh.1) hs
  · exact not_straddle_of_leastFirst ih (operands_level hS hl) (operands_level hS hh)
      (hfirst _ hh.1) hs

-- The exact condition, for any conditions that operands stay among: the order is
-- transitive exactly if none of them are straddled, and then equality is an equivalence.
theorem trans_iff_not_straddled (hS : Hereditary S)
    (hleaf : ∀ kind, PreorderOn (v.compareValues kind) fun x => S (leaf kind x)) :
    ((∀ a b c, S a → S b → S c →
        compare v a b ≠ .gt → compare v b c ≠ .gt → compare v a c ≠ .gt) ↔ ¬Straddled v S) ∧
      (¬Straddled v S → Equivalence fun a b : {c // S c} => equal v a b = true) := by
  refine ⟨⟨not_straddled_of_trans hS hleaf, fun h => (preorderOn_compare hS hleaf h).trans⟩,
    fun h => ?_⟩
  have hP := preorderOn_compare hS hleaf h
  refine ⟨fun a => ?_, fun {a b} hab => ?_, fun {a b c} hab hbc => ?_⟩
  · exact equal_iff.mpr (hP.self a.2)
  · exact equal_iff.mpr (hP.eq_symm a.2 b.2 (equal_iff.mp hab))
  · exact equal_iff.mpr (hP.eq_trans a.2 b.2 c.2 (equal_iff.mp hab) (equal_iff.mp hbc))

end Conditions

-- The parts of a choice between two groups that share an operand.
theorem trans_iff_not_straddled_parts :
    let v := Vocabulary.ofFlags ["a", "b", "c"]
    let S := fun c => c ∈ (or [and [flag "a", flag "b"], and [flag "b", not (flag "c")]]).parts
    Hereditary S ∧ (∀ kind, PreorderOn (v.compareValues kind) fun x => S (leaf kind x)) ∧
      ((∀ a b c, S a → S b → S c →
          compare v a b ≠ .gt → compare v b c ≠ .gt → compare v a c ≠ .gt) ↔ ¬Straddled v S) ∧
        (¬Straddled v S → Equivalence fun a b : {c // S c} => equal v a b = true) := by
  intro v S
  have hS : Hereditary S := hereditary_parts _
  have hleaf : ∀ kind, PreorderOn (v.compareValues kind) fun x => S (leaf kind x) := by
    intro kind
    apply Vocabulary.preorderOn_ofFlags
    intro x hx
    simp only [S, parts, partsAll, flag, List.append_nil, List.cons_append, List.nil_append,
      List.mem_cons, List.not_mem_nil, leaf.injEq, reduceCtorEq, false_or, or_false] at hx
    tauto
  exact ⟨hS, hleaf, trans_iff_not_straddled hS hleaf⟩

-- The group in the middle is level with the group before it, which begins alike, and with
-- the one after it, which holds the same.
theorem not_trans_compare :
    ¬∀ (v : Vocabulary) (a b c : Condition),
      (∀ kind, PreorderOn (v.compareValues kind) fun x =>
        (kind, x) ∈ a.leaves ++ b.leaves ++ c.leaves) →
      compare v a b ≠ .gt → compare v b c ≠ .gt → compare v a c ≠ .gt := by
  intro h
  refine h (.ofFlags ["a", "b", "c"]) (and [flag "b", flag "c"]) (and [flag "b", flag "a"])
    (and [flag "a", flag "b"]) (fun kind => ?_) (by decide) (by decide) (by decide)
  apply Vocabulary.preorderOn_ofFlags
  intro x hx
  simp only [leaves, leavesAll, flag, List.append_nil, List.cons_append, List.nil_append,
    List.mem_cons, List.not_mem_nil, Prod.mk.injEq, or_false] at hx
  tauto

end SearchQuery.Condition

import SearchQuery.Codec.Builtin
import SearchQuery.Proofs.Numeral.Compare
import SearchQuery.Proofs.Order.Laws
import SearchQuery.Proofs.Results

-- Operators before values keep the order of the values lawful. Comparing the other way round
-- turns the answer over on all values whatever, and a total preorder of bare values becomes one of
-- the values with operators that are read from text.

namespace SearchQuery.Codec

open SearchQuery.Numeral SearchQuery.Calendar

variable {base codec : Codec} {S : Value → Prop} {step? : Option Step} {v w : Value}

-- The codec reads some text as the value.
def Reads (codec : Codec) (v : Value) : Prop :=
  ∃ input, codec.parse input = .ok v

-- The codecs that come from a base when values get operators, once or again and again.
inductive Wraps (base : Codec) : Codec → Prop
  | self : Wraps base base
  | literal {codec : Codec} (h : Wraps base codec) : Wraps base codec.withOperator
  | reduced {codec : Codec} (step? : Option Step) (h : Wraps base codec) :
      Wraps base (codec.withReducedOperator step?)

-- Steps up and down do not lead out of a set of values.
def StepsWithin (step? : Option Step) (S : Value → Prop) : Prop :=
  ∀ step ∈ step?, ∀ v w, S v → step v 1 = .ok w ∨ step v (-1) = .ok w → S w

-- A codec whose order is a total preorder on a set that holds all values it reads.
structure OrderedOn (codec : Codec) (S : Value → Prop) : Prop where
  preorder : PreorderOn codec.compare S
  reads : ∀ v, codec.Reads v → S v

section Oriented

-- Flags decide only where there are two.
def compareFlags : Option Bool → Option Bool → Ordering
  | some m, some n => Ord.compare m n
  | _, _ => .eq

theorem compareFlags_swap (m? n? : Option Bool) :
    (compareFlags m? n?).swap = compareFlags n? m? := by
  cases m? with
  | none => cases n? <;> rfl
  | some m =>
      cases n? with
      | none => rfl
      | some n => exact swap_compare m n

theorem compareRanked_eq (base : Codec) (p : Nat) (a : Value) (q : Nat) (b : Value) :
    base.compareRanked p a q b = (Ord.compare p q).then (base.compare a b) := by
  by_cases hpq : p = q
  · simp [compareRanked, hpq]
  · rw [compareRanked, if_neg hpq]
    cases hc : Ord.compare p q with
    | eq => exact absurd (Std.LawfulEqOrd.eq_of_compare hc) hpq
    | lt => rfl
    | gt => rfl

theorem compareCompared_reduced (base : Codec) (p q : StrictOperator) (a b : Value)
    (m? n? : Option Bool) :
    base.compareCompared (.reduced p a m?) (.reduced q b n?) =
      (compareFlags m? n?).then (base.compareRanked p.rank a q.rank b) := by
  cases m? with
  | none => cases n? <;> rfl
  | some m =>
      cases n? with
      | none => rfl
      | some n => cases m <;> cases n <;> rfl

theorem compareRanked_swap (h : OrientedOn base.compare fun _ => True) (p : Nat) (a : Value)
    (q : Nat) (b : Value) : (base.compareRanked p a q b).swap = base.compareRanked q b p a := by
  rw [compareRanked_eq, compareRanked_eq, Ordering.swap_then, swap_compare,
    h.swap a b trivial trivial]

-- Values of two forms are level.
theorem orientedOn_compareCompared (h : OrientedOn base.compare fun _ => True) :
    OrientedOn base.compareCompared fun _ => True := by
  refine ⟨fun a b _ _ => ?_⟩
  cases a with
  | comparison p a =>
      cases b with
      | comparison q b => exact compareRanked_swap h _ _ _ _
      | _ => simp [compareCompared]
  | reduced p a m? =>
      cases b with
      | reduced q b n? =>
          rw [compareCompared_reduced, compareCompared_reduced, Ordering.swap_then,
            compareFlags_swap, compareRanked_swap h]
      | _ => simp [compareCompared]
  | _ => cases b <;> simp [compareCompared]

theorem Wraps.orientedOn (h : Wraps base codec) (hbase : OrientedOn base.compare fun _ => True) :
    OrientedOn codec.compare fun _ => True := by
  induction h with
  | self => exact hbase
  | literal _ ih => exact orientedOn_compareCompared ih
  | reduced _ _ ih => exact orientedOn_compareCompared ih

end Oriented

section Wrapped

-- The parts of a reduced comparison.
structure ReducedParts where
  op : StrictOperator
  value : Value
  negated : Option Bool

def ReducedParts.toValue (x : ReducedParts) : Value :=
  .reduced x.op x.value x.negated

-- A flag is there just when there are no steps.
def ReducedParts.Fits (x : ReducedParts) (step? : Option Step) (S : Value → Prop) : Prop :=
  S x.value ∧ x.negated.isSome = step?.isNone

theorem reads_of_parseLiteral {input : String} {x : Operator × Value}
    (h : parseLiteral base input = .ok x) : base.Reads x.2 := by
  obtain ⟨v, hv, rfl⟩ := map_eq_ok.mp h
  exact ⟨_, hv⟩

theorem OrderedOn.exists_of_reads_withOperator (hbase : OrderedOn base S)
    (h : base.withOperator.Reads v) : ∃ x : Operator × Value, S x.2 ∧ .comparison x.1 x.2 = v := by
  obtain ⟨input, hparse⟩ := h
  obtain ⟨x, hx, rfl⟩ := map_eq_ok.mp hparse
  exact ⟨x, hbase.reads _ (reads_of_parseLiteral hx), rfl⟩

-- The value stays or moves one step.
theorem exists_of_reduce {op : Operator} (hsteps : StepsWithin step? S) (hv : S v)
    (h : reduce step? op v = .ok w) : ∃ x : ReducedParts, x.Fits step? S ∧ x.toValue = w := by
  cases step? with
  | none =>
      cases op <;>
        · cases h
          exact ⟨⟨_, _, _⟩, ⟨hv, rfl⟩, rfl⟩
  | some step =>
      cases op with
      | atLeast =>
          obtain ⟨u, hu, rfl⟩ := map_eq_ok.mp h
          exact ⟨⟨_, _, _⟩, ⟨hsteps step rfl v u hv (.inr hu), rfl⟩, rfl⟩
      | atMost =>
          obtain ⟨u, hu, rfl⟩ := map_eq_ok.mp h
          exact ⟨⟨_, _, _⟩, ⟨hsteps step rfl v u hv (.inl hu), rfl⟩, rfl⟩
      | _ =>
          cases h
          exact ⟨⟨_, _, _⟩, ⟨hv, rfl⟩, rfl⟩

theorem OrderedOn.exists_of_reads_withReducedOperator (hbase : OrderedOn base S)
    (hsteps : StepsWithin step? S) (h : (base.withReducedOperator step?).Reads v) :
    ∃ x : ReducedParts, x.Fits step? S ∧ x.toValue = v := by
  obtain ⟨input, hparse⟩ := h
  obtain ⟨x, hx, hreduce⟩ := bind_eq_ok.mp hparse
  exact exists_of_reduce hsteps (hbase.reads _ (reads_of_parseLiteral hx)) hreduce

theorem OrderedOn.withOperator (h : OrderedOn base S) :
    PreorderOn base.withOperator.compare base.withOperator.Reads := by
  have hranks := preorderOn_key (fun x : Operator × Value => x.1.rank) fun x => S x.2
  refine (hranks.lex (h.preorder.on Prod.snd)).image (fun x y _ _ => ?_)
    fun v => h.exists_of_reads_withOperator
  exact compareRanked_eq base x.1.rank x.2 y.1.rank y.2

-- Where all values have flags or none has, the flags are ordered as well.
theorem compareFlags_eq {m? n? : Option Bool} (h : m?.isSome = n?.isSome) :
    compareFlags m? n? = Ord.compare (m?.getD false) (n?.getD false) := by
  cases m? with
  | none =>
      cases n? with
      | none => rfl
      | some n => cases h
  | some m =>
      cases n? with
      | none => cases h
      | some n => rfl

-- First the flags decide, then the operators, then the values.
theorem OrderedOn.withReducedOperator (h : OrderedOn base S) (hsteps : StepsWithin step? S) :
    PreorderOn (base.withReducedOperator step?).compare (base.withReducedOperator step?).Reads := by
  let P (x : ReducedParts) : Prop := x.Fits step? S
  have hflags := preorderOn_key (fun x => x.negated.getD false) P
  have hranks := preorderOn_key (fun x => x.op.rank) P
  have hvalues := (h.preorder.on ReducedParts.value).mono fun x (hx : P x) => hx.1
  refine (hflags.lex (hranks.lex hvalues)).image (fun x y hx hy => ?_)
    fun v => h.exists_of_reads_withReducedOperator hsteps
  have hlevel := compareFlags_eq (hx.2.trans hy.2.symm)
  calc base.compareCompared x.toValue y.toValue
      = (compareFlags x.negated y.negated).then
          (base.compareRanked x.op.rank x.value y.op.rank y.value) :=
        compareCompared_reduced base x.op y.op x.value y.value x.negated y.negated
    _ = _ := by rw [hlevel, compareRanked_eq]

theorem OrderedOn.preorderOn_reads (h : OrderedOn codec S) :
    PreorderOn codec.compare codec.Reads :=
  h.preorder.mono h.reads

theorem stepsWithin_none : StepsWithin none S := by
  intro step hstep
  cases hstep

end Wrapped

section Plain

-- The order of values of one form is that of what they hold.

def IsText (v : Value) : Prop :=
  ∃ s, .text s = v

def IsInteger (v : Value) : Prop :=
  ∃ n, .integer n = v

def IsNumber (v : Value) : Prop :=
  ∃ x : Binary64, x.isNaN = false ∧ .float x = v

def IsTimestamp (v : Value) : Prop :=
  ∃ t, .timestamp t = v

theorem orderedOn_string : OrderedOn string IsText where
  preorder :=
    (preorderOn_ord fun _ => True).image (f := Value.text) (fun _ _ _ _ => rfl)
      fun _ ⟨s, hs⟩ => ⟨s, trivial, hs⟩
  reads := by
    rintro v ⟨input, hparse⟩
    cases hparse
    exact ⟨input, rfl⟩

theorem orientedOn_compare_int : OrientedOn int.compare fun _ => True := by
  refine ⟨fun a b _ _ => ?_⟩
  show (compareNumbers a b).swap = compareNumbers b a
  rw [compareNumbers, compareNumbers, ← Value.compareNumbers?_swap a b]
  cases Value.compareNumbers? a b <;> rfl

theorem orderedOn_int : OrderedOn int IsInteger where
  preorder :=
    (preorderOn_key Int64.toInt fun _ => True).image (f := Value.integer) (fun _ _ _ _ => rfl)
      fun _ ⟨n, hn⟩ => ⟨n, trivial, hn⟩
  reads := by
    rintro v ⟨input, hparse⟩
    obtain ⟨n, -, rfl⟩ := map_eq_ok.mp hparse
    exact ⟨n, rfl⟩

theorem stepsWithin_stepInt : StepsWithin (some stepInt) IsInteger := by
  intro step hmem v w hv hstep
  obtain rfl := Option.mem_some.mp hmem
  obtain ⟨n, rfl⟩ := hv
  have hmoved (diff : Int) (h : stepInt (.integer n) diff = .ok w) : IsInteger w := by
    simp only [stepInt] at h
    split at h
    · cases h
      exact ⟨_, rfl⟩
    · cases h
  exact hstep.elim (hmoved 1) (hmoved (-1))

theorem isNaN_of_parseFloat {input : String} {x : Binary64} (h : parseFloat input = .ok x) :
    x.isNaN = false := by
  rw [parseFloat] at h
  split at h
  · next y hread =>
    cases h
    simpa using (Option.filter_eq_some_iff.mp hread).2
  · cases h

theorem orderedOn_float : OrderedOn float IsNumber where
  preorder := by
    refine (preorderOn_key Binary64.orderKey fun x => x.isNaN = false).image (f := Value.float)
      (fun x y hx hy => ?_) fun _ h => h
    show x.compare y = Ord.compare x.orderKey y.orderKey
    rw [Binary64.compare, hx, hy]
    rfl
  reads := by
    rintro v ⟨input, hparse⟩
    obtain ⟨x, hx, rfl⟩ := map_eq_ok.mp hparse
    exact ⟨x, isNaN_of_parseFloat hx, rfl⟩

theorem preorderOn_compareTimestamps : PreorderOn compareTimestamps IsTimestamp :=
  ((preorderOn_key Instant.seconds fun _ => True).lex
    (preorderOn_key Instant.nanos fun _ => True)).image (f := Value.timestamp)
      (fun _ _ _ _ => rfl) fun _ ⟨t, ht⟩ => ⟨t, trivial, ht⟩

theorem orderedOn_unixTimestamp : OrderedOn unixTimestamp IsTimestamp where
  preorder := preorderOn_compareTimestamps
  reads := by
    rintro v ⟨input, hparse⟩
    obtain ⟨t, -, rfl⟩ := map_eq_ok.mp hparse
    exact ⟨t, rfl⟩

theorem orderedOn_utcDate : OrderedOn utcDate IsTimestamp where
  preorder := preorderOn_compareTimestamps
  reads := by
    rintro v ⟨input, hparse⟩
    obtain ⟨date, -, rfl⟩ := map_eq_ok.mp hparse
    exact ⟨Instant.midnight date, rfl⟩

end Plain

theorem exists_preorderOn_of_builtin {b : Builtin} (h : b ≠ .flag) :
    ∃ codec, b.codec? = some codec ∧ PreorderOn codec.compare codec.Reads := by
  cases b with
  | flag => exact absurd rfl h
  | string => exact ⟨_, rfl, orderedOn_string.preorderOn_reads⟩
  | int => exact ⟨_, rfl, orderedOn_int.preorderOn_reads⟩
  | float => exact ⟨_, rfl, orderedOn_float.preorderOn_reads⟩
  | intOp => exact ⟨_, rfl, orderedOn_int.withOperator⟩
  | intOpReduced => exact ⟨_, rfl, orderedOn_int.withReducedOperator stepsWithin_stepInt⟩
  | floatOp => exact ⟨_, rfl, orderedOn_float.withOperator⟩
  | floatOpReduced => exact ⟨_, rfl, orderedOn_float.withReducedOperator stepsWithin_none⟩
  | unixTimestamp => exact ⟨_, rfl, orderedOn_unixTimestamp.preorderOn_reads⟩
  | utcDate => exact ⟨_, rfl, orderedOn_utcDate.preorderOn_reads⟩
  | unixTimestampOp => exact ⟨_, rfl, orderedOn_unixTimestamp.withOperator⟩
  | unixTimestampOpReduced =>
      exact ⟨_, rfl, orderedOn_unixTimestamp.withReducedOperator stepsWithin_none⟩
  | utcDateOp => exact ⟨_, rfl, orderedOn_utcDate.withOperator⟩
  | utcDateOpReduced => exact ⟨_, rfl, orderedOn_utcDate.withReducedOperator stepsWithin_none⟩

-- A base whose order turns over gives codecs whose orders turn over, on values of all forms. One
-- whose order is a total preorder on a set that it reads into and steps do not leave gives total
-- preorders on what is read. That holds of the codecs with names, and floats have the order of the
-- numbers that they stand for.
theorem orientedOn_and_preorderOn_compare :
    (∀ base codec : Codec, OrientedOn base.compare (fun _ => True) → Wraps base codec →
      OrientedOn codec.compare (fun _ => True) ∧ ∀ v, codec.compare v v = .eq) ∧
    (∀ (base : Codec) (S : Value → Prop), OrderedOn base S →
      PreorderOn base.withOperator.compare base.withOperator.Reads ∧
      ∀ step?, StepsWithin step? S →
        PreorderOn (base.withReducedOperator step?).compare
          (base.withReducedOperator step?).Reads) ∧
    (∀ b : Builtin, b ≠ .flag →
      ∃ codec, b.codec? = some codec ∧ PreorderOn codec.compare codec.Reads) ∧
    (∀ v, float.Reads v → IsNumber v) ∧
    ∀ x y : Binary64, x.isNaN = false → y.isNaN = false →
      float.compare (.float x) (.float y) = cmp x.toEReal y.toEReal := by
  refine ⟨?_, ?_, fun b => exists_preorderOn_of_builtin, orderedOn_float.reads, ?_⟩
  · intro base codec hbase hwraps
    have horiented := hwraps.orientedOn hbase
    exact ⟨horiented, fun v => horiented.self trivial⟩
  · intro base S h
    exact ⟨h.withOperator, fun _ => h.withReducedOperator⟩
  · intro x y hx hy
    exact Binary64.compare_eq_cmp hx hy

theorem orientedOn_and_preorderOn_compare_int :
    OrientedOn (int.withOperator.withReducedOperator none).compare (fun _ => True) ∧
      (int.withReducedOperator (some stepInt)).Reads (.reduced .greater (.integer 4) none) ∧
      PreorderOn (int.withReducedOperator (some stepInt)).compare
        (int.withReducedOperator (some stepInt)).Reads ∧
      (∃ codec, Builtin.utcDateOp.codec? = some codec ∧ PreorderOn codec.compare codec.Reads) ∧
      IsNumber (.float (Binary64.infinity true)) ∧
      float.compare (.float (Binary64.infinity true)) (.float (Binary64.ofInt 2)) =
        cmp (Binary64.infinity true).toEReal (Binary64.ofInt 2).toEReal := by
  obtain ⟨hwrapped, hread, hbuiltin, hfloat, hnumeric⟩ := orientedOn_and_preorderOn_compare
  have hnested : Wraps int (int.withOperator.withReducedOperator none) :=
    .reduced none (.literal .self)
  exact ⟨(hwrapped int _ orientedOn_compare_int hnested).1, ⟨">=5", by rfl⟩,
    (hread int IsInteger orderedOn_int).2 (some stepInt) stepsWithin_stepInt,
    hbuiltin .utcDateOp (by decide), hfloat _ ⟨"-inf", by rfl⟩,
    hnumeric _ _ (by decide) (by decide)⟩

-- On values that are not read from text the order may go round: one flag is absent here.
example :
    let low : Value := .reduced .greater .unit (some false)
    let middle : Value := .reduced .equal .unit (some true)
    let high : Value := .reduced .less .unit none
    string.compareCompared low middle = .lt ∧ string.compareCompared middle high = .lt ∧
      string.compareCompared high low = .lt := by
  decide

end SearchQuery.Codec

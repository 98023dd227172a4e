import SearchQuery.Proofs.Token.Parts
import SearchQuery.Proofs.Token.Texts

-- A machine that takes the parts of a query one by one and keeps a stack of the groups that
-- are open. It has its own account of what a part is, of what a group comes to and of what an
-- error shows. Scanning gives the tokens and the errors of this machine.

namespace SearchQuery.Token

-- Tokens as one token: the only one there is, or else a group of them.
def asOne : List Token → Token
  | [] => group []
  | [t] => t
  | t :: u :: tokens => group (t :: u :: tokens)

-- Whether a token holds, at any depth, a word that is not white space only.
def holdsWord (t : Token) : Bool :=
  t.texts.any fun text => text.toList.any fun c => decide (c.toNat ∉ whiteSpace)

section Tokens

theorem asOne_eq_gather (ts : List Token) : asOne ts = gather ts := by
  match ts with
  | [] => rfl
  | [_] => rfl
  | _ :: _ :: _ => rfl

theorem iterate_negated (n : Nat) (t : Token) : negated^[n] t = negate n t := by
  induction n with
  | zero => rfl
  | succ n ih => rw [Function.iterate_succ_apply', ih, negate]

theorem holdsWord_eq (t : Token) : t.holdsWord = !t.isEmpty := by
  have hempty : t.isEmpty = t.texts.all Text.isBlank := by
    rw [Bool.eq_iff_iff, isEmpty_iff, List.all_eq_true]
  have htext : ∀ text : String, (text.toList.any fun c => decide (c.toNat ∉ whiteSpace)) =
      !Text.isBlank text := by
    intro text
    rw [isBlank_eq, List.not_all_eq_any_not]
    simp only [decide_not]
  rw [hempty, List.not_all_eq_any_not, holdsWord, funext htext]

end Tokens

-- One pass over the tokens of a group that hold a word. `branches` are those that a bar has
-- ended, and `current` is what came since the last bar.
def passBars (branches current : List Token) : List Token → Except GroupingFault (List Token)
  | [] =>
      if branches.isEmpty then .ok current
      else if current.isEmpty then .error .orWithoutRight
      else .ok [choice (branches ++ [asOne current])]
  | word "|" :: tokens =>
      if current.isEmpty then .error .orWithoutLeft
      else passBars (branches ++ [asOne current]) [] tokens
  | t :: tokens => passBars branches (current ++ [t]) tokens

section Bars

theorem passBars_bar (branches current tokens : List Token) :
    passBars branches current (bar :: tokens) =
      if current.isEmpty then .error .orWithoutLeft
      else passBars (branches ++ [asOne current]) [] tokens :=
  rfl

theorem passBars_cons {t : Token} (h : t ≠ bar) (branches current tokens : List Token) :
    passBars branches current (t :: tokens) = passBars branches (current ++ [t]) tokens := by
  rw [passBars]
  exact h

-- The pass in terms of the parts between the bars that are still to come.
theorem passBars_eq {tokens part : List Token} {parts : List (List Token)}
    (branches current : List Token) (h : tokens.splitOnP isBar = part :: parts) :
    passBars branches current tokens =
      if ((current ++ part) :: parts).dropLast.any List.isEmpty then .error .orWithoutLeft
      else if branches.isEmpty && parts.isEmpty then .ok (current ++ part)
      else if (((current ++ part) :: parts).getLast?.getD []).isEmpty then .error .orWithoutRight
      else .ok [choice (branches ++ ((current ++ part) :: parts).map gather)] := by
  induction tokens generalizing branches current part parts with
  | nil =>
      cases h
      simp [passBars, asOne_eq_gather]
  | cons t tokens ih =>
      obtain ⟨q, qs, hsplit⟩ := List.exists_cons_of_ne_nil (List.splitOnP_ne_nil isBar tokens)
      rw [List.splitOnP_cons_eq_if_modifyHead, hsplit] at h
      by_cases ht : t = bar
      · rw [if_pos (isBar_iff.mpr ht)] at h
        cases h
        rw [ht, passBars_bar, ih _ _ hsplit, List.append_nil, List.nil_append,
          List.dropLast_cons_cons, List.any_cons, List.getLast?_cons_cons, asOne_eq_gather]
        cases current <;> simp [-List.any_eq_true]
      · rw [if_neg (by rwa [isBar_iff])] at h
        cases h
        rw [passBars_cons ht, ih _ _ hsplit, List.append_assoc, List.singleton_append]

-- The parts need not be cut out first: one pass finds the choice, and the first error.
theorem passBars_kept (tokens : List Token) : passBars [] [] (kept tokens) = resolve tokens := by
  obtain ⟨part, parts, hsplit, hwhole, -⟩ := exists_parts (kept tokens)
  rw [passBars_eq [] [] hsplit]
  cases parts with
  | nil =>
      rw [resolve_of_split_singleton hsplit, hwhole]
      simp
  | cons q parts =>
      rw [resolve_of_split hsplit (by simp)]
      simp

end Bars

-- The query, or a group that is open: the dashes before its `(`, the position of its first
-- part and the tokens found in it so far.
structure Frame where
  dashes : Nat
  start : Nat
  tokens : List Token

def Frame.push (frame : Frame) (t : Token) : Frame :=
  { frame with tokens := frame.tokens ++ [t] }

-- What a frame comes to before position `stop`. Tokens that hold no word are dropped first,
-- and an error is about all that is inside the frame.
def Frame.close (frame : Frame) (stop : Nat) : Except GroupingError (List Token) :=
  (passBars [] [] (frame.tokens.filter holdsWord)).mapError fun fault =>
    ⟨fault, frame.start, stop⟩

-- The innermost frame and those around it; the last of all is the query.
structure Machine where
  pos : Nat
  top : Frame
  below : List Frame

namespace Machine

def initial : Machine :=
  ⟨0, ⟨0, 0, []⟩, []⟩

-- A group has its dashes put before it when it is closed, a text at once.
def step (m : Machine) (part : String) : Except GroupingError Machine :=
  match Part.of part with
  | .opening n => .ok ⟨m.pos + 1, ⟨n, m.pos + 1, []⟩, m.top :: m.below⟩
  | .closing n =>
      match n, m.below with
      | 0, outer :: below =>
          (m.top.close m.pos).map fun tokens =>
            ⟨m.pos + 1, outer.push (negated^[m.top.dashes] (asOne tokens)), below⟩
      | _, _ => .error ⟨.unopened, 0, m.pos + 1⟩
  | .plain n text => .ok ⟨m.pos + 1, m.top.push (negated^[n] (word text)), m.below⟩

def finish (m : Machine) : Except GroupingError (List Token) :=
  match m.below with
  | [] => m.top.close m.pos
  | _ :: _ => .error ⟨.unclosed, m.top.start - 1, m.pos⟩

-- One pass over the parts from left to right.
def run (m : Machine) : List String → Except GroupingError (List Token)
  | [] => m.finish
  | part :: parts => (m.step part).bind fun m => run m parts

-- The tokens of a query as the machine finds them. An error shows the parts it is about.
def read (query : String) : Except QueryError (Option (List Token)) :=
  match parts query with
  | [] => .ok none
  | part :: parts =>
      match run initial (part :: parts) with
      | .ok tokens => .ok (some tokens)
      | .error e =>
          .error (.grouping e.fault
            (" ".intercalate ((part :: parts).extract e.start e.stop)))

section Step

variable {pos : Nat} {frame outer : Frame} {below : List Frame} {text : String}

theorem step_open (h : withoutDashes text = "(") :
    step ⟨pos, frame, below⟩ text =
      .ok ⟨pos + 1, ⟨dashes text, pos + 1, []⟩, frame :: below⟩ := by
  rw [step, Part.of_open h]

theorem step_close :
    step ⟨pos, frame, outer :: below⟩ ")" =
      (frame.close pos).map fun tokens =>
        ⟨pos + 1, outer.push (negate frame.dashes (gather tokens)), below⟩ := by
  rw [step, Part.of_close rfl]
  simp only [iterate_negated, asOne_eq_gather]
  rfl

theorem step_unopened : step ⟨pos, frame, []⟩ ")" = .error ⟨.unopened, 0, pos + 1⟩ :=
  rfl

theorem step_dashed_close (hne : text ≠ ")") (h : withoutDashes text = ")") :
    step ⟨pos, frame, below⟩ text = .error ⟨.unopened, 0, pos + 1⟩ := by
  have hdashes : dashes text ≠ 0 := fun hzero =>
    hne ((withoutDashes_of_dashes_eq_zero hzero).symm.trans h)
  obtain ⟨n, hn⟩ := Nat.exists_eq_succ_of_ne_zero hdashes
  rw [step, Part.of_close h, hn]
  rfl

theorem step_text (h : IsText text) :
    step ⟨pos, frame, below⟩ text =
      .ok ⟨pos + 1, frame.push (negate (dashes text) (word (withoutDashes text))), below⟩ := by
  rw [step, Part.of_text h]
  simp only [iterate_negated]

end Step

-- How the machine goes on when a level is done.
def resume (n : Nat) (below : List Frame) (level : Level) : Except GroupingError (List Token) :=
  match below with
  | [] => .ok level.tokens
  | outer :: below =>
      run ⟨level.next, outer.push (negate n (gather level.tokens)), below⟩ level.rest

section Run

theorem push_reverse (n start : Nat) (tokens : List Token) (t : Token) :
    Frame.push ⟨n, start, tokens.reverse⟩ t = ⟨n, start, (t :: tokens).reverse⟩ := by
  rw [Frame.push, List.reverse_cons]

theorem closed_eq_close {tokens : List Token} (hlook : ∀ t ∈ tokens, t.looksEmpty = t.isEmpty)
    (n start stop next : Nat) (rest : List String) :
    closed start stop next rest tokens =
      (Frame.close ⟨n, start, tokens.reverse⟩ stop).map fun resolved => ⟨resolved, next, rest⟩ := by
  have hkept : tokens.reverse.filter holdsWord = kept tokens.reverse :=
    List.filter_congr fun t ht => by rw [holdsWord_eq, hlook t (List.mem_reverse.mp ht)]
  unfold closed Frame.close
  rw [hkept, passBars_kept]
  cases resolve tokens.reverse <;> rfl

-- The machine and the scan of a level agree on what the level comes to, on its errors and
-- on where it ends. The induction is on the number of words, and all the frames below stay
-- as they are until the level is done.
theorem run_eq_scanned {words : List String} {tokens : List Token} {below : List Frame}
    {n start pos : Nat} (hlook : ∀ t ∈ tokens, t.looksEmpty = t.isEmpty) :
    run ⟨pos, ⟨n, start, tokens.reverse⟩, below⟩ words =
      (scanned (!below.isEmpty) start pos words tokens).bind (resume n below) := by
  match words with
  | [] =>
      cases below with
      | nil =>
          show Frame.close ⟨n, start, tokens.reverse⟩ pos = (scanned false _ _ _ _).bind _
          rw [scanned_nil, closed_eq_close hlook n]
          cases Frame.close ⟨n, start, tokens.reverse⟩ pos <;> rfl
      | cons outer below =>
          show _ = (scanned true _ _ _ _).bind _
          rw [scanned_unclosed]
          rfl
  | text :: rest =>
      rw [run]
      rcases role text with rfl | hopen | ⟨hne, hclose⟩ | htext
      · cases below with
        | nil =>
            show _ = (scanned false _ _ _ _).bind _
            rw [step_unopened, scanned_unopened]
            rfl
        | cons outer below =>
            show _ = (scanned true _ _ _ _).bind _
            rw [step_close, scanned_close, closed_eq_close hlook n]
            cases Frame.close ⟨n, start, tokens.reverse⟩ pos <;> rfl
      · have hinside : run ⟨pos + 1, ⟨dashes text, pos + 1, []⟩, ⟨n, start, tokens.reverse⟩ :: below⟩
            rest = (scanned true (pos + 1) (pos + 1) rest []).bind _ :=
          run_eq_scanned (List.forall_mem_nil _)
        rw [step_open hopen, scanned_open hopen]
        show run _ rest = _
        rw [hinside]
        cases hinner : scanned true (pos + 1) (pos + 1) rest [] with
        | error e => rfl
        | ok inner =>
            have hle : inner.rest.length ≤ rest.length := length_rest_le hinner
            obtain ⟨read, found, hread, -, hresolve⟩ := reads_of_scanned hinner
            have hgroup := looksEmpty_negate_gather (dashes text) (hread.solid hresolve)
            show run ⟨inner.next, Frame.push ⟨n, start, tokens.reverse⟩ _, below⟩ inner.rest =
              (scanned _ start inner.next inner.rest _).bind _
            rw [push_reverse]
            exact run_eq_scanned (List.forall_mem_cons.mpr ⟨hgroup, hlook⟩)
      · rw [step_dashed_close hne hclose, scanned_dashed_close hne hclose]
        rfl
      · rw [step_text htext, scanned_text htext, push_reverse]
        exact run_eq_scanned (List.forall_mem_cons.mpr ⟨looksEmpty_negate_word _ _, hlook⟩)
termination_by words.length
decreasing_by
  · simp
  · simp only [List.length_cons]; omega
  · simp

theorem run_initial (words : List String) : run initial words = scanWords words := by
  have h : run initial words = (scanned false 0 0 words []).bind (resume 0 []) :=
    run_eq_scanned (List.forall_mem_nil _)
  rw [h, scanWords_eq]
  cases scanned false 0 0 words [] <;> rfl

theorem excerpt_eq (words : List String) (e : GroupingError) :
    excerpt words e = " ".intercalate (words.extract e.start e.stop) := by
  rw [excerpt, List.drop_take, List.extract_eq_take_drop]

-- A query has the tokens, or the error with the excerpt, that the machine finds.
theorem read_eq_machine (query : String) : Token.read query = Machine.read query := by
  rw [read_eq, Machine.read, parts_eq_words]
  cases Text.words query with
  | nil => rfl
  | cons text words =>
      simp only [run_initial]
      cases scanWords (text :: words) with
      | ok tokens => rfl
      | error e =>
          show Except.error (QueryError.grouping e.fault (excerpt (text :: words) e)) = .error _
          rw [excerpt_eq]

-- Dashes on words and groups at several depths, tokens that hold no word, and each of the errors.
theorem read_eq_machine_nested :
    let readings : List (String × Except QueryError (Option (List Token))) :=
      [("-( a | --( b -c )\t) - ( ) d",
          .ok (some [negated (choice [word "a", negated (negated (group [word "b",
            negated (word "c")]))]), word "d"])),
        (" x  ( a ( b | ) )", .error (.grouping .orWithoutRight "b |")),
        ("| a -( b c -| )", .error (.grouping .orWithoutLeft "| a -( b c -| )")),
        ("( a ) -) b", .error (.grouping .unopened "( a ) -)")),
        ("a ( b --( c", .error (.grouping .unclosed "--( c"))]
    ∀ reading ∈ readings,
      Token.read reading.1 = reading.2 ∧ Machine.read reading.1 = reading.2 := by
  intro readings reading hmem
  have hread : Token.read reading.1 = reading.2 := by
    simp only [readings, List.mem_cons, List.not_mem_nil, or_false] at hmem
    rcases hmem with rfl | rfl | rfl | rfl | rfl <;> cbv
  exact ⟨hread, (read_eq_machine _).symm.trans hread⟩

end Run

end Machine

end SearchQuery.Token

import ComplexReckoner.Console.Program
import ComplexReckoner.Proofs.InputLines
import ComplexReckoner.Proofs.Replay

/-! # Scripts

A script is the same interpreter as a dialogue and as the command that writes one value; they differ
in when they stop and in what they write.

All of them take steps of `Session.trace`, which goes on whatever a line does. A script takes these
steps up to the first one that quits or fails (`Console.Script.steps_eq_takeThrough`), a dialogue up
to the first one that quits (`Console.Dialogue.steps_map_some`), and definitions are steps that must
all assign (`Console.define_of_assigned`). What a script and a dialogue write is told step by step
(`Console.Script.report_append`, `Console.Dialogue.report_turns`). -/

namespace ComplexReckoner

/-! ## Up to a stop -/

section Stops

variable {α : Type} {stops other : α → Bool}

/-- The items of a list up to and including the first that stops. -/
def takeThrough (stops : α → Bool) : List α → List α
  | [] => []
  | item :: rest => item :: if stops item then [] else takeThrough stops rest

/-- Nothing follows an item that stops. -/
theorem takeThrough_cons_of_stops {item : α} (stop : stops item = true) (rest : List α) :
    takeThrough stops (item :: rest) = [item] := by
  rw [takeThrough, if_pos stop]

/-- An item that does not stop is followed by the others. -/
theorem takeThrough_cons_of_goesOn {item : α} (goesOn : stops item = false) (rest : List α) :
    takeThrough stops (item :: rest) = item :: takeThrough stops rest := by
  rw [takeThrough, if_neg (by simp [goesOn])]

/-- Items that do not stop are followed by the others. -/
theorem takeThrough_append {before : List α} (goesOn : ∀ item ∈ before, stops item = false)
    (rest : List α) : takeThrough stops (before ++ rest) = before ++ takeThrough stops rest := by
  induction before with
  | nil => rfl
  | cons item before ih =>
    obtain ⟨goesOnHere, goesOnLater⟩ := List.forall_mem_cons.1 goesOn
    rw [List.cons_append, takeThrough_cons_of_goesOn goesOnHere, ih goesOnLater, List.cons_append]

/-- Only the last item can stop. -/
theorem goesOn_of_takeThrough {list before after : List α} {item : α}
    (split : takeThrough stops list = before ++ item :: after) :
    ∀ earlier ∈ before, stops earlier = false := by
  induction list generalizing before with
  | nil => cases before <;> cases split
  | cons first rest ih =>
    cases before with
    | nil => nofun
    | cons second before =>
      cases stop : stops first with
      | true =>
        rw [takeThrough_cons_of_stops stop] at split
        cases before <;> cases split
      | false =>
        rw [takeThrough_cons_of_goesOn stop, List.cons_append, List.cons.injEq] at split
        obtain ⟨rfl, splitRest⟩ := split
        exact List.forall_mem_cons.2 ⟨stop, ih splitRest⟩

/-- What goes on up to a later stop can first be stopped there. -/
theorem takeThrough_takeThrough (weaker : ∀ item, other item = true → stops item = true)
    (list : List α) : takeThrough stops (takeThrough other list) = takeThrough stops list := by
  induction list with
  | nil => rfl
  | cons item rest ih =>
    cases stop : stops item with
    | true => rw [takeThrough, takeThrough_cons_of_stops stop, takeThrough_cons_of_stops stop]
    | false =>
      have goesOn : other item = false := by
        rw [← Bool.not_eq_true]
        intro stopsToo
        rw [weaker item stopsToo] at stop
        cases stop
      rw [takeThrough_cons_of_goesOn goesOn, takeThrough_cons_of_goesOn stop,
        takeThrough_cons_of_goesOn stop, ih]

end Stops

/-! ## The steps of many lines -/

namespace Session

/-- Lines have a step each. -/
@[simp] theorem length_trace (session : Session) (lines : List Text) :
    (session.trace lines).length = lines.length := by
  induction lines generalizing session with
  | nil => rfl
  | cons line rest ih => rw [trace, List.length_cons, ih, List.length_cons]

/-- Later lines go on in the session after the earlier ones. -/
theorem trace_append (session : Session) (lines others : List Text) :
    session.trace (lines ++ others) =
      session.trace lines ++ (session.afterAll lines).trace others := by
  induction lines generalizing session with
  | nil => rfl
  | cons line rest ih => rw [List.cons_append, trace, trace, ih, afterAll_cons, List.cons_append]

end Session

namespace Step

/-- Whether a step failed. -/
def Fails (step : Step) : Prop := ∃ fault, step.result = .error fault

/-- The value that a step had, if it had one. -/
def value? (step : Step) : Option ComplexFloat :=
  match step.result with
  | .ok (.value value) => some value
  | _ => none

/-- The values that steps had, one per line. -/
def valueLines (steps : List Step) : Text :=
  (steps.filterMap value?).flatMap fun value => value.render ++ ['\n']

/-- A step with a value has a line of its own, in front of the lines of the others. -/
theorem valueLines_cons_of_value {step : Step} {value : ComplexFloat}
    (found : step.value? = some value) (rest : List Step) :
    valueLines (step :: rest) = value.render ++ ['\n'] ++ valueLines rest := by
  rw [valueLines, List.filterMap_cons_some found, List.flatMap_cons, valueLines]

/-- A step without a value has no line. -/
theorem valueLines_cons_of_none {step : Step} (none : step.value? = none) (rest : List Step) :
    valueLines (step :: rest) = valueLines rest := by
  rw [valueLines, List.filterMap_cons_none none, valueLines]

/-- Steps without values have no lines. -/
theorem valueLines_eq_nil {steps : List Step} (none : ∀ step ∈ steps, step.value? = none) :
    valueLines steps = [] := by
  rw [valueLines, List.filterMap_eq_nil_iff.2 none, List.flatMap_nil]

end Step

namespace Console

/-! ## The steps of scripts and dialogues -/

/-- A script takes the steps of its lines up to the first that quits or fails. -/
theorem Script.steps_eq_takeThrough (session : Session) (lines : List Text) :
    steps session lines = takeThrough isLast (session.trace lines) := by
  induction lines generalizing session with
  | nil => rfl
  | cons line rest ih => rw [steps, Session.trace, takeThrough, ih]

namespace Dialogue

/-- The steps of a dialogue, one for each line that is read. -/
def steps (session : Session) (readings : List (Option Text)) : List Step :=
  (turns session readings).filterMap Turn.step?

/-- The turn of a line that asks to leave. -/
theorem Turn.ofStep_of_leaves {step : Step} (leaves : asksToLeave step = true) :
    ofStep step = .leaves step :=
  if_pos leaves

/-- The turn of a line that does not ask to leave. -/
theorem Turn.ofStep_of_stays {step : Step} (stays : asksToLeave step = false) :
    ofStep step = .stays step :=
  if_neg (by simp [stays])

/-- The turn of a line that was read has its step. -/
@[simp] theorem Turn.step?_ofStep (step : Step) : (ofStep step).step? = some step := by
  unfold ofStep
  split <;> rfl

/-- The turns of lines are those of their steps, up to the first that quits. -/
theorem turns_map_some (session : Session) (lines : List Text) :
    turns session (lines.map some) =
      (takeThrough asksToLeave (session.trace lines)).map Turn.ofStep := by
  induction lines generalizing session with
  | nil => rfl
  | cons line rest ih =>
    rw [List.map_cons, turns, turn, Session.trace]
    cases leaves : asksToLeave (session.execute line) with
    | true =>
      rw [takeThrough_cons_of_stops leaves, List.map_singleton, Turn.ofStep_of_leaves leaves]
    | false =>
      rw [takeThrough_cons_of_goesOn leaves, List.map_cons, Turn.ofStep_of_stays leaves]
      exact congrArg (Turn.stays (session.execute line) :: ·) (ih _)

/-- A dialogue takes the steps of its lines up to the first that quits. -/
theorem steps_map_some (session : Session) (lines : List Text) :
    steps session (lines.map some) = takeThrough asksToLeave (session.trace lines) := by
  have found : Turn.step? ∘ Turn.ofStep = some := funext Turn.step?_ofStep
  rw [steps, turns_map_some, List.filterMap_map, found, List.filterMap_some]

end Dialogue

/-- A script goes no further than a step that quits or fails. -/
theorem Script.isLast_eq : isLast = fun step => step.result matches .ok .quit | .error _ := by
  funext step
  unfold isLast
  rcases step.result with fault | (_ | _ | _ | _) <;> rfl

/-- A script also stops where a dialogue does. -/
theorem Script.isLast_of_asksToLeave {step : Step} (leaves : Dialogue.asksToLeave step = true) :
    isLast step = true := by
  unfold Dialogue.asksToLeave at leaves
  unfold isLast
  split at leaves
  · next quit => rw [quit]
  · cases leaves

/-- A step that fails is the last one of a script. -/
theorem Script.isLast_of_fails {step : Step} (fails : step.Fails) : isLast step = true := by
  obtain ⟨fault, failed⟩ := fails
  rw [isLast, failed]

/-- A script goes on after a step that neither quits nor fails. -/
theorem Script.isLast_eq_false {step : Step} (stays : Dialogue.asksToLeave step = false)
    (succeeds : ¬ step.Fails) : isLast step = false := by
  unfold isLast
  split
  · next quit =>
    rw [Dialogue.asksToLeave, quit] at stays
    cases stays
  · next fault failed => exact absurd ⟨fault, failed⟩ succeeds
  · rfl

/-! ## What is written -/

/-- A script writes the values of its steps, one per line, and goes on with the number of the next
line. -/
theorem Script.report_append (number : Nat) {before : List Step}
    (succeed : ∀ step ∈ before, ¬ step.Fails) (rest : List Step) :
    report number (before ++ rest) =
      (report (number + before.length) rest).after (Step.valueLines before) := by
  induction before generalizing number with
  | nil => rfl
  | cons step before ih =>
    obtain ⟨succeeds, succeedLater⟩ := List.forall_mem_cons.1 succeed
    have later := ih (number + 1) succeedLater
    have position : number + (before.length + 1) = number + 1 + before.length := by omega
    rw [List.cons_append, report, List.length_cons, position, later]
    cases result : step.result with
    | error fault => exact absurd ⟨fault, result⟩ succeeds
    | ok outcome =>
      cases outcome with
      | value value =>
        have found : step.value? = some value := by rw [Step.value?, result]
        rw [Step.valueLines_cons_of_value found]
        simp only [Report.after, List.append_assoc, asLine]
      | quit => rw [Step.valueLines_cons_of_none (by rw [Step.value?, result])]
      | empty => rw [Step.valueLines_cons_of_none (by rw [Step.value?, result])]
      | assigned name value => rw [Step.valueLines_cons_of_none (by rw [Step.value?, result])]

/-- A script that never fails writes the values of its steps. -/
theorem Script.report_of_succeed {steps : List Step} (succeed : ∀ step ∈ steps, ¬ step.Fails) :
    report 1 steps = .written (Step.valueLines steps) := by
  have whole := report_append 1 succeed []
  rw [List.append_nil] at whole
  rw [whole, report, Report.after, Report.written, Report.written, List.append_nil]

/-- A script that fails tells the line, after the values of the steps before. -/
theorem Script.report_of_fails {before : List Step} (succeed : ∀ step ∈ before, ¬ step.Fails)
    {step : Step} {fault : SessionFault} (failed : step.result = .error fault) :
    report 1 (before ++ [step]) =
      ⟨Step.valueLines before, some (.line (before.length + 1) fault)⟩ := by
  have last : report (1 + before.length) [step] = .failed (.line (before.length + 1) fault) := by
    rw [report, failed, Nat.add_comm]
  rw [report_append 1 succeed, last, Report.after, Report.failed, List.append_nil]

namespace Dialogue

/-- After a turn that stays, a dialogue closes as it does without it. -/
theorem closing_getLast?_cons (step : Step) (later : List Turn) :
    closing (Turn.stays step :: later).getLast? = closing later.getLast? := by
  cases later with
  | nil => rfl
  | cons turn later => rw [List.getLast?_cons_cons]

/-- A dialogue writes its prompt and its answer for each of its steps. After a line that asks to
leave there is nothing more; where the input ends, there is one more prompt. -/
theorem report_turns (list : List Step) :
    let taken := takeThrough asksToLeave list
    (closing (taken.map Turn.ofStep).getLast?).after
        (prompt ++ (taken.map Turn.ofStep).flatMap Turn.output) =
      .written ((taken.flatMap fun step => prompt ++ answer step) ++
        if taken.any asksToLeave then [] else asLine prompt) := by
  dsimp only
  induction list with
  | nil => rfl
  | cons step rest ih =>
    cases leaves : asksToLeave step with
    | true =>
      rw [takeThrough_cons_of_stops leaves, List.map_singleton, Turn.ofStep_of_leaves leaves]
      simp [closing, Turn.output, Report.after, Report.written, leaves]
    | false =>
      rw [takeThrough_cons_of_goesOn leaves, List.map_cons, Turn.ofStep_of_stays leaves,
        closing_getLast?_cons]
      -- the prompt that ends this turn is the one before the next line
      have later := congrArg (Report.after · (prompt ++ answer step)) ih
      simpa [Turn.output, Report.after, Report.written, leaves] using later

end Dialogue

/-- The report of a file with a text in it is that of the script. -/
theorem reportScript_utf8 (limits : Limits) (path text : Text) :
    reportScript limits path (some text.utf8) =
      Script.report 1 (Script.steps { limits } text.lines) := by
  rw [reportScript, Option.bind_some, Text.ofUtf8?_utf8]
  rfl

/-! ## Scripts and dialogues -/

section Dialogues

variable (session : Session) (text : Text)

/-- The steps of a dialogue are those of the lines of its input, up to the first that quits. -/
theorem Dialogue.steps_readingsOfBytes :
    steps session (Text.readingsOfBytes text.utf8) =
      takeThrough asksToLeave (session.trace text.readings) := by
  rw [Text.readingsOfBytes_utf8, steps_map_some]

/-- The steps of a script are those of a dialogue, up to the first that quits or fails. -/
theorem Script.steps_lines :
    steps session text.lines =
      takeThrough isLast (Dialogue.steps session (Text.readingsOfBytes text.utf8)) := by
  rw [steps_eq_takeThrough, Session.trace_lines, Dialogue.steps_readingsOfBytes session text,
    takeThrough_takeThrough fun _ => isLast_of_asksToLeave]

variable {session text} {before after : List Step} {step : Step}

/-- A script goes on along the steps of a dialogue before another one, if they succeed. -/
theorem Script.goesOn_along_dialogue
    (split : Dialogue.steps session (Text.readingsOfBytes text.utf8) = before ++ step :: after)
    (succeed : ∀ earlier ∈ before, ¬ earlier.Fails) :
    ∀ earlier ∈ before, isLast earlier = false := by
  rw [Dialogue.steps_readingsOfBytes session text] at split
  intro earlier member
  exact isLast_eq_false (goesOn_of_takeThrough split earlier member) (succeed earlier member)

/-- A script takes all steps of a dialogue in which no line fails. -/
theorem Script.steps_of_succeed
    (succeed : ∀ step ∈ Dialogue.steps session (Text.readingsOfBytes text.utf8), ¬ step.Fails) :
    steps session text.lines = Dialogue.steps session (Text.readingsOfBytes text.utf8) := by
  rw [steps_lines]
  rcases List.eq_nil_or_concat (Dialogue.steps session (Text.readingsOfBytes text.utf8)) with
    none | ⟨before, last, split⟩
  · rw [none, takeThrough]
  · rw [List.concat_eq_append] at split
    have succeedBefore : ∀ earlier ∈ before, ¬ earlier.Fails := by
      intro earlier member
      refine succeed earlier ?_
      rw [split]
      exact List.mem_append_left _ member
    -- only the last step can quit
    rw [split, takeThrough_append (goesOn_along_dialogue split succeedBefore), takeThrough,
      takeThrough, ite_self]

/-- A script takes the steps of a dialogue up to the first that fails. -/
theorem Script.steps_of_fails
    (split : Dialogue.steps session (Text.readingsOfBytes text.utf8) = before ++ step :: after)
    (succeed : ∀ earlier ∈ before, ¬ earlier.Fails) (fails : step.Fails) :
    steps session text.lines = before ++ [step] := by
  rw [steps_lines, split, takeThrough_append (goesOn_along_dialogue split succeed),
    takeThrough_cons_of_stops (isLast_of_fails fails)]

/-- A dialogue with a text succeeds, and writes what its steps call for. -/
theorem Dialogue.run_utf8 (limits : Limits) (text : Text) :
    let read := steps { limits } (Text.readingsOfBytes text.utf8)
    run limits text.utf8 =
      .written (greeting ++ (read.flatMap fun step => prompt ++ answer step) ++
        if read.any asksToLeave then [] else asLine prompt) := by
  intro read
  have told := congrArg (Report.after · greeting)
    (report_turns (Session.trace { limits } text.readings))
  have taken : read = _ := steps_readingsOfBytes { limits } text
  rw [run, Text.readingsOfBytes_utf8, turns_map_some, taken]
  simpa only [Report.after, Report.written, List.append_assoc] using told

end Dialogues

/-- A script and a dialogue are the same interpreter up to the first stop.

For a text as a file and as an input, the dialogue takes one step for each line that it reads, up to
the first that quits, and the steps of the script, each with its result and the session after it,
are those of the dialogue up to and including the first that quits or fails. The dialogue writes its
prompt and an answer for each step, and a value is answered by itself on a line of its own. So if no
line fails before the dialogue ends, the script succeeds and writes the values, one per line; and
otherwise the script fails, writes the values of the lines before the first that fails, and tells
the number of that line among those that the dialogue reads. -/
theorem script_follows_dialogue (limits : Limits) (text path : Text)
    (files : Text → Option (List UInt8)) (input : List UInt8)
    (file : files path = some text.utf8) :
    let read := Dialogue.steps { limits } (Text.readingsOfBytes text.utf8)
    let ran := Script.steps { limits } text.lines
    let dialogue := Invocation.report ⟨.dialogue, limits⟩ files text.utf8
    let script := Invocation.report ⟨.script path, limits⟩ files input
    let quits := fun step : Step => step.result matches .ok .quit
    let stops := fun step : Step => step.result matches .ok .quit | .error _
    Text.readingsOfBytes text.utf8 = text.readings.map some ∧
    read = takeThrough quits (Session.trace { limits } text.readings) ∧
    ran = takeThrough stops read ∧ script = Script.report 1 ran ∧
    dialogue.exitCode = 0 ∧
    dialogue.output = "Starting interface. Enter q to leave\n".toList ++
      (read.flatMap fun step => ">> ".toList ++ Dialogue.answer step) ++
        (if read.any quits then [] else ">> \n".toList) ∧
    (∀ step ∈ read, ∀ value, step.result = .ok (.value value) →
      Dialogue.answer step = value.render ++ ['\n']) ∧
    ((∀ step ∈ read, ∀ fault, step.result ≠ .error fault) →
      script.exitCode = 0 ∧
        script.output = (read.filterMap Step.value?).flatMap fun value => value.render ++ ['\n']) ∧
    ∀ before step after fault, read = before ++ step :: after →
      (∀ earlier ∈ before, ∀ other, earlier.result ≠ .error other) →
      step.result = .error fault →
        script.exitCode = 65 ∧
          script.output =
            ((before.filterMap Step.value?).flatMap fun value => value.render ++ ['\n']) ∧
          script.failure?.map Failure.message =
            some ("[line ".toList ++ Nat.toDigits 10 (before.length + 1) ++ "] Error: ".toList ++
              fault.message) := by
  intro read ran dialogue script quits stops
  have reported : script = Script.report 1 ran := by
    rw [← reportScript_utf8 limits path text, ← file]
    rfl
  have held : dialogue = _ := Dialogue.run_utf8 limits text
  have along : ran = takeThrough stops read := by
    rw [← show Script.isLast = stops from Script.isLast_eq]
    exact Script.steps_lines { limits } text
  refine ⟨text.readingsOfBytes_utf8, Dialogue.steps_readingsOfBytes _ _, along, reported,
    ?_, ?_, ?_, ?_, ?_⟩
  · rw [held]
    rfl
  · rw [held]
    rfl
  · intro step _ value found
    rw [Dialogue.answer, found]
    rfl
  · intro succeed
    have never : ∀ step ∈ read, ¬ step.Fails := fun step member ⟨fault, failed⟩ =>
      succeed step member fault failed
    have all : ran = read := Script.steps_of_succeed never
    rw [reported, all, Script.report_of_succeed never]
    exact ⟨rfl, rfl⟩
  · intro before step after fault split succeed failed
    have succeedBefore : ∀ earlier ∈ before, ¬ earlier.Fails := fun earlier member ⟨other, fails⟩ =>
      succeed earlier member other fails
    have first : ran = before ++ [step] :=
      Script.steps_of_fails split succeedBefore ⟨fault, failed⟩
    rw [reported, first, Script.report_of_fails succeedBefore failed]
    exact ⟨rfl, rfl, rfl⟩

/-- The second line of `i`, `y` and `q` fails after the first one has had a value; and with `i`, a
blank line, `x=i`, `x`, `q` and `y` both leave before the line that would fail. -/
theorem script_follows_dialogue_texts :
    let fails : Text := "i\r\ny\nq".toList
    let leaves : Text := "i\n \r\nx=i\nx\nq\r\ny\n".toList
    let dialogue := fun text : Text =>
      Invocation.report ⟨.dialogue, {}⟩ (fun _ => some text.utf8) text.utf8
    let script := fun text : Text =>
      Invocation.report ⟨.script ['f'], {}⟩ (fun _ => some text.utf8) []
    ((dialogue fails).output =
        "Starting interface. Enter q to leave\n>> 0+1i\n>> >> exit\n".toList ∧
      (script fails).exitCode = 65 ∧ (script fails).output = "0+1i\n".toList ∧
      (script fails).failure?.map Failure.message =
        some "[line 2] Error: undefined variable `y`".toList) ∧
    (dialogue leaves).output = "Starting interface. Enter q to leave\n".toList ++
        ">> 0+1i\n>> >> x = 0+1i\n>> 0+1i\n>> exit\n".toList ∧
      (script leaves).exitCode = 0 ∧ (script leaves).output = "0+1i\n0+1i\n".toList := by
  intro fails leaves dialogue script
  obtain ⟨-, failing, -, -, -, failingOutput, -, -, fault⟩ :=
    script_follows_dialogue {} fails ['f'] (fun _ => some fails.utf8) [] rfl
  obtain ⟨-, leaving, -, -, -, leavingOutput, -, values, -⟩ :=
    script_follows_dialogue {} leaves ['f'] (fun _ => some leaves.utf8) [] rfl
  refine ⟨⟨failingOutput.trans ?_, ?_⟩, leavingOutput.trans ?_, ?_⟩
  · rw [failing]
    decide +kernel
  · let first : Step := ⟨.ok (.value (.ofImaginary 1.0)), {}⟩
    let undefined : SessionFault := .evaluation ['y'] (.undefinedVariable ['y'] ⟨0, 1⟩)
    have split : Dialogue.steps {} (Text.readingsOfBytes fails.utf8) =
        [first] ++ ⟨.error undefined, {}⟩ :: [⟨.ok .quit, {}⟩] := by
      rw [failing]
      rfl
    have succeed : ∀ earlier ∈ [first], ∀ other, earlier.result ≠ .error other := by
      intro earlier member other
      rw [List.mem_singleton.1 member]
      nofun
    obtain ⟨exit, output, message⟩ := fault [first] _ _ undefined split succeed rfl
    exact ⟨exit, output.trans (by decide +kernel), message.trans (by decide +kernel)⟩
  · rw [leaving]
    decide +kernel
  · have succeed : ∀ step ∈ Dialogue.steps {} (Text.readingsOfBytes leaves.utf8), ∀ fault,
        step.result ≠ .error fault := by
      have all : (Dialogue.steps {} (Text.readingsOfBytes leaves.utf8)).all
          (fun step => step.result.isOk) = true := by
        rw [leaving]
        decide +kernel
      intro step member fault failed
      have holds := List.all_eq_true.1 all step member
      rw [failed] at holds
      cases holds
    obtain ⟨exit, output⟩ := values succeed
    rw [leaving] at output
    exact ⟨exit, output.trans (by decide +kernel)⟩

/-! ## Scripts and definitions -/

section Definitions

variable {session : Session} {definitions : List Text}

/-- Definitions that all assign are made one after another. -/
theorem define_of_assigned
    (assigned : ∀ step ∈ session.trace definitions, ∃ name value, step.Assigns name value) :
    define session definitions = .ok (session.afterAll definitions) := by
  induction definitions generalizing session with
  | nil => rfl
  | cons definition rest ih =>
    obtain ⟨⟨name, value, assigns⟩, assignedRest⟩ := List.forall_mem_cons.1 assigned
    rw [Step.Assigns] at assigns
    simp only [define, assigns, Session.afterAll_cons]
    exact ih assignedRest

/-- Definitions fail when one of them does not assign. -/
theorem define_of_not_assigned
    (unassigned : ∃ step ∈ session.trace definitions, ∀ name value, ¬ step.Assigns name value) :
    ∃ failure, define session definitions = .error failure ∧ failure.exitCode = 1 := by
  induction definitions generalizing session with
  | nil =>
    obtain ⟨step, member, -⟩ := unassigned
    cases member
  | cons definition rest ih =>
    rw [define]
    split
    · next name value assigns =>
      -- the definition at fault is one of the others
      refine ih ?_
      obtain ⟨step, member, never⟩ := unassigned
      rcases List.mem_cons.1 member with rfl | later
      · exact absurd assigns (never name value)
      · exact ⟨step, later, never⟩
    · exact ⟨_, rfl, rfl⟩
    · exact ⟨_, rfl, rfl⟩

/-- A script goes on after an assignment. -/
theorem Script.isLast_of_assigns {step : Step} {name : Text} {value : ComplexFloat}
    (assigns : step.Assigns name value) : isLast step = false := by
  rw [Step.Assigns] at assigns
  rw [isLast, assigns]

/-- Assignments have no value to write. -/
theorem value?_of_assigns {step : Step} {name : Text} {value : ComplexFloat}
    (assigns : step.Assigns name value) : step.value? = none := by
  rw [Step.Assigns] at assigns
  rw [Step.value?, assigns]

/-- A line without `=` that is neither blank nor asks to leave is an expression. -/
theorem execute_expression (session : Session) {line : Text} (single : '=' ∉ line)
    (nonempty : line.compact ≠ []) (stays : line.compact ≠ ['q']) :
    session.execute line = ⟨(session.calculate line.compact).map .value, session⟩ := by
  rcases Statement.read_cases line with
    ⟨leaves, -⟩ | ⟨empty, -⟩ | ⟨-, asks⟩ | ⟨before, after, split, -⟩
  · exact absurd ((Text.trim_eq_singleton_iff (by decide) line).1 leaves) stays
  · exact absurd ((Text.trim_eq_nil_iff line).1 empty) nonempty
  · exact Session.execute_of_read asks
  · rw [split] at single
    exact absurd (List.mem_append_right before List.mem_cons_self) single

/-- A script of definitions and an expression takes the steps of the definitions, and one more. -/
theorem Script.steps_of_spells {text expression : Text}
    (spells : text.Spells (definitions ++ [expression]))
    (assigned : ∀ step ∈ session.trace definitions, ∃ name value, step.Assigns name value) :
    steps session text.lines =
      session.trace definitions ++ [(session.afterAll definitions).execute expression] := by
  have goesOn : ∀ step ∈ session.trace definitions, isLast step = false := by
    intro step member
    obtain ⟨_, _, assigns⟩ := assigned step member
    exact isLast_of_assigns assigns
  have single : ∀ after : Session, takeThrough isLast (after.trace [expression]) =
      [after.execute expression] := by
    intro after
    rw [Session.trace, Session.trace, takeThrough, takeThrough, ite_self]
  rw [steps_eq_takeThrough, Session.trace_lines, spells.trace_readings, Session.trace_append,
    takeThrough_append goesOn, single]

/-- A script of definitions and an expression reports what comes of the expression. -/
theorem Script.report_of_assigned {step : Step}
    (assigned : ∀ step ∈ session.trace definitions, ∃ name value, step.Assigns name value) :
    report 1 (session.trace definitions ++ [step]) = report (definitions.length + 1) [step] := by
  have succeed : ∀ step ∈ session.trace definitions, ¬ step.Fails := by
    rintro step member ⟨fault, failed⟩
    obtain ⟨_, _, assigns⟩ := assigned step member
    rw [Step.Assigns, failed] at assigns
    cases assigns
  have silent : Step.valueLines (session.trace definitions) = [] := by
    refine Step.valueLines_eq_nil fun step member => ?_
    obtain ⟨_, _, assigns⟩ := assigned step member
    exact value?_of_assigns assigns
  rw [report_append 1 succeed, silent, Session.length_trace, Nat.add_comm]
  rfl

variable {limits : Limits}

/-- After definitions that assign, the value of an expression is written, or its fault is told. -/
theorem reportValue_of_assigned
    (assigned : ∀ step ∈ Session.trace { limits } definitions,
      ∃ name value, step.Assigns name value) (expression : Text) :
    let session := Session.afterAll { limits } definitions
    reportValue limits expression definitions =
      match evaluate session.environment session.limits expression.compact with
      | .ok value => .written (asLine value.render)
      | .error fault => .failed (.rejected (.evaluation expression.compact fault)) := by
  intro session
  rw [reportValue, define_of_assigned assigned]
  dsimp only
  cases found : evaluate session.environment session.limits expression.compact with
  | ok value => rw [Session.calculate_of_evaluate_eq_ok found]
  | error fault => rw [Session.calculate_of_evaluate_eq_error found]

/-- After lines that assign, the value of an expression is written, or its fault is told with the
number of its line. -/
theorem reportScript_of_assigned
    (assigned : ∀ step ∈ Session.trace { limits } definitions,
      ∃ name value, step.Assigns name value)
    {expression : Text} (single : '=' ∉ expression) (nonempty : expression.compact ≠ [])
    (stays : expression.compact ≠ ['q']) {text : Text}
    (spells : text.Spells (definitions ++ [expression])) (path : Text) :
    let session := Session.afterAll { limits } definitions
    reportScript limits path (some text.utf8) =
      match evaluate session.environment session.limits expression.compact with
      | .ok value => .written (asLine value.render)
      | .error fault =>
          .failed (.line (definitions.length + 1) (.evaluation expression.compact fault)) := by
  intro session
  rw [reportScript_utf8, Script.steps_of_spells spells assigned,
    Script.report_of_assigned assigned, execute_expression _ single nonempty stays]
  cases found : evaluate session.environment session.limits expression.compact with
  | ok value =>
    rw [Session.calculate_of_evaluate_eq_ok found]
    exact congrArg Report.written (List.append_nil _)
  | error fault =>
    rw [Session.calculate_of_evaluate_eq_error found]
    rfl

end Definitions

/-- The command that writes a value agrees with a script.

Let definitions all assign, and let an expression have no `=` and be neither blank nor the line that
quits. The value of the expression after the definitions is written exactly when a script of the
definitions and the expression, one per line, writes the same; and otherwise both write nothing, and
both tell the same fault of the same compacted expression. If a definition does not assign, the
command fails and writes nothing. -/
theorem value_agrees_with_script (limits : Limits) (definitions : List Text) (expression : Text)
    (files : Text → Option (List UInt8)) (input : List UInt8) :
    let value := Invocation.report ⟨.value expression definitions, limits⟩ files input
    ((∀ step ∈ Session.trace { limits } definitions,
        ∃ name held, step.result = .ok (.assigned name held)) →
      '=' ∉ expression → expression.compact ≠ [] → expression.compact ≠ ['q'] →
      ∀ text path : Text, text.Spells (definitions ++ [expression]) →
        files path = some text.utf8 →
        let script := Invocation.report ⟨.script path, limits⟩ files input
        (∀ output, value.exitCode = 0 ∧ value.output = output ↔
          script.exitCode = 0 ∧ script.output = output) ∧
        (value.exitCode ≠ 0 →
          value.exitCode = 1 ∧ script.exitCode = 65 ∧ value.output = [] ∧ script.output = [] ∧
            ∃ fault, value.failure? = some (.rejected (.evaluation expression.compact fault)) ∧
              script.failure? =
                some (.line (definitions.length + 1) (.evaluation expression.compact fault)))) ∧
    ((∃ step ∈ Session.trace { limits } definitions,
        ∀ name held, step.result ≠ .ok (.assigned name held)) →
      value.exitCode = 1 ∧ value.output = []) := by
  intro value
  have valueReport : value = reportValue limits expression definitions := rfl
  constructor
  · intro assigned single nonempty stays text path spells file script
    have scriptReport : script = reportScript limits path (some text.utf8) := by
      rw [← file]
      rfl
    rw [reportValue_of_assigned assigned] at valueReport
    rw [reportScript_of_assigned assigned single nonempty stays spells] at scriptReport
    -- both report on the same evaluation
    cases found : evaluate (Session.afterAll { limits } definitions).environment
      (Session.afterAll { limits } definitions).limits expression.compact with
    | ok result =>
      rw [found] at valueReport scriptReport
      rw [valueReport, scriptReport]
      exact ⟨fun _ => Iff.rfl, fun fails => absurd rfl fails⟩
    | error fault =>
      rw [found] at valueReport scriptReport
      rw [valueReport, scriptReport]
      exact ⟨fun _ => ⟨nofun, nofun⟩, fun _ => ⟨rfl, rfl, rfl, rfl, fault, rfl, rfl⟩⟩
  · intro unassigned
    obtain ⟨failure, failed, exit⟩ := define_of_not_assigned unassigned
    rw [valueReport, reportValue, failed]
    exact ⟨exit, rfl⟩

/-- After `x=i`, both write the value of `x`, and both fail at the second variable of `x+y`; and `x`
alone defines nothing. -/
theorem value_agrees_with_script_texts :
    let files : Text → Text → Option (List UInt8) := fun expression _ =>
      some (Text.utf8 (['x', '=', 'i'] ++ (['\r', '\n'] ++ expression)))
    let value := fun expression : Text =>
      Invocation.report ⟨.value expression [['x', '=', 'i']], {}⟩ (files expression) []
    let script := fun expression : Text =>
      Invocation.report ⟨.script ['f'], {}⟩ (files expression) []
    let fault : SessionFault := .evaluation ['x', '+', 'y'] (.undefinedVariable ['y'] ⟨2, 1⟩)
    let unbound := Invocation.report ⟨.value ['x'] [['x']], {}⟩ (files ['x']) []
    (((value ['x']).exitCode = 0 ∧ (value ['x']).output = "0+1i\n".toList) ∧
      (script ['x']).exitCode = 0 ∧ (script ['x']).output = "0+1i\n".toList) ∧
    ((value ['x', '+', 'y']).exitCode = 1 ∧ (script ['x', '+', 'y']).exitCode = 65 ∧
      (value ['x', '+', 'y']).output = [] ∧ (script ['x', '+', 'y']).output = [] ∧
      (value ['x', '+', 'y']).failure? = some (.rejected fault) ∧
      (script ['x', '+', 'y']).failure? = some (.line 2 fault)) ∧
    unbound.exitCode = 1 ∧ unbound.output = [] := by
  intro files value script told unbound
  have agrees := fun expression =>
    (value_agrees_with_script {} [['x', '=', 'i']] expression (files expression) []).1
  have fails := (value_agrees_with_script {} [['x']] ['x'] (files ['x']) []).2
  have assigned : ∀ step ∈ Session.trace {} [['x', '=', 'i']],
      ∃ name held, step.result = .ok (.assigned name held) := by
    intro step member
    rw [List.mem_singleton.1 member]
    exact ⟨['x'], .ofImaginary 1.0, rfl⟩
  have spells : ∀ expression : Text, expression ≠ [] → '\n' ∉ expression →
      Text.Spells (['x', '=', 'i'] ++ (['\r', '\n'] ++ expression))
        ([['x', '=', 'i']] ++ [expression]) := fun expression nonempty single =>
    .cons (by decide) (.inr rfl) (.last nonempty single)
  have known := agrees ['x'] assigned (by decide) (by decide) (by decide) _ ['f']
    (spells ['x'] (by decide) (by decide)) rfl
  have unknown := agrees ['x', '+', 'y'] assigned (by decide) (by decide) (by decide) _ ['f']
    (spells ['x', '+', 'y'] (by decide) (by decide)) rfl
  have written : (value ['x']).exitCode = 0 ∧ (value ['x']).output = "0+1i\n".toList := by
    decide +kernel
  have same : (value ['x', '+', 'y']).failure? = some (.rejected told) := rfl
  obtain ⟨valueExit, scriptExit, valueOutput, scriptOutput, fault, valueFault, scriptFault⟩ :=
    unknown.2 (by rw [Report.exitCode, same]; decide)
  have sameFault : SessionFault.evaluation ['x', '+', 'y'] fault = told :=
    (Failure.rejected.inj (Option.some.inj (same.symm.trans valueFault))).symm
  have scriptSame : (script ['x', '+', 'y']).failure? = some (.line 2 told) := by
    rw [← sameFault]
    exact scriptFault
  refine ⟨⟨written, (known.1 _).1 written⟩,
    ⟨valueExit, scriptExit, valueOutput, scriptOutput, same, scriptSame⟩, fails ?_⟩
  refine ⟨Session.execute {} ['x'], List.mem_singleton.2 rfl, ?_⟩
  nofun

end Console

end ComplexReckoner

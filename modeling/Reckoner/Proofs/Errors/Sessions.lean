import Mathlib
import Reckoner.CommandLine.Repl
import Reckoner.Proofs.Errors.Evaluation
import Reckoner.Proofs.Evaluation.Compiled
import Reckoner.Proofs.Sessions.Outcome

namespace Reckoner

variable {α β : Type}

namespace Session

/-- A session over the standard library that holds no signaling decimal and shows results in a
    supported base. -/
structure Sound (s : Session) : Prop where
  quiet : s.environment.Quiet
  supported : s.outputBase ∈ Value.supportedBases

def Careful (good : α → Prop) (x : Action α) : Prop :=
  ∀ s project, s.Sound →
    Ends good (fun e => e.isEngine = true) (outcome x s project).1.1 ∧ (outcome x s project).1.2.Sound

namespace Careful

variable {good : α → Prop} {fine : β → Prop}

theorem lift {x : Except Error α} (ends : Ends good (fun e => e.isEngine = true) x) :
    Careful good (liftM x) := by
  intro s project sound
  rw [outcome_lift]
  exact ⟨ends, sound⟩

theorem pure {a : α} (holds : good a) : Careful good (pure a) := fun _ _ sound => ⟨holds, sound⟩

theorem bind {x : Action α} {f : α → Action β} (first : Careful good x)
    (second : ∀ a, good a → Careful fine (f a)) : Careful fine (x >>= f) := by
  intro s project sound
  have both := first s project sound
  rw [outcome_bind]
  revert both
  rcases outcome x s project with ⟨⟨_ | a, s'⟩, project'⟩ <;> rintro ⟨ends, kept⟩
  · exact ⟨ends, kept⟩
  · exact second a ends s' project' kept

theorem handle {x : Action α} {handle : Error → Action α} (first : Careful good x)
    (second : ∀ e, e.isEngine = true → Careful good (handle e)) :
    Careful good (tryCatch x handle) := by
  intro s project sound
  have both := first s project sound
  rw [outcome_tryCatch]
  revert both
  rcases outcome x s project with ⟨⟨e | a, s'⟩, project'⟩ <;> rintro ⟨ends, kept⟩
  · exact second e ends s' project' kept
  · exact ⟨ends, kept⟩

theorem read {f : Session → Action α} (next : ∀ s, s.Sound → Careful good (f s)) :
    Careful good (getThe Session >>= f) := by
  intro s project sound
  exact next s sound s project sound

theorem write {s : Session} (sound : s.Sound) : Careful (fun _ => True) (set s) :=
  fun _ _ _ => ⟨trivial, sound⟩

theorem modify {f : Session → Session} (keeps : ∀ s, s.Sound → (f s).Sound) :
    Careful (fun _ => True) (modifyThe Session f) :=
  fun s _ sound => ⟨trivial, keeps s sound⟩

theorem inProject (action : InProject α) : Careful (fun _ => True) (inProject action) :=
  fun _ _ sound => ⟨trivial, sound⟩

end Careful

theorem compile_careful (text : String) :
    Careful (fun f => ∃ preferDecimal nesting, f = Formula.compile preferDecimal text nesting)
      (compile text) := by
  apply Careful.read
  intro s _
  exact (Careful.inProject _).bind fun _ _ => .pure ⟨_, _, rfl⟩

theorem reportChanges_careful : Careful (fun _ => True) reportChanges := by
  apply Careful.read
  intro s _
  exact (Careful.inProject _).bind fun _ _ =>
    .modify fun s sound => ⟨⟨sound.quiet.standard, sound.quiet.bindings⟩, sound.supported⟩

theorem inEnvironment_careful {good : α → Prop} {action : Run Environment α}
    (careful : action.Careful Environment.Quiet good) : Careful good (inEnvironment action) := by
  apply Careful.read
  intro s sound
  obtain ⟨ends, quiet⟩ := careful s.environment sound.quiet
  refine Careful.bind (.write ⟨quiet, sound.supported⟩) fun _ _ => ?_
  exact reportChanges_careful.bind fun _ _ => .lift ends

theorem setVariable_careful (name : String) {h : HostValue} (quiet : h.Quiet) :
    Careful (fun _ => True) (setVariable name h) :=
  inEnvironment_careful (Environment.set_careful name quiet)

theorem format_expected {s : Session} (sound : s.Sound) (v : Value) : Expected (s.format v) := by
  cases v with
  | empty | decimal | double => trivial
  | integer n =>
    simp only [format, Value.format, Value.tag, if_true, if_neg (not_not_intro sound.supported)]
    trivial

theorem reportFailure_careful (text : String) (e : Error) :
    Careful (fun _ => True) (reportFailure text e) := by
  apply Careful.read
  intro s _
  split
  · exact Careful.inProject _
  · exact Careful.pure trivial

theorem run_careful (text : String) : Careful (fun _ => True) (run text) := by
  apply (compile_careful text).bind
  rintro f ⟨preferDecimal, nesting, rfl⟩
  have checked : Expected (Formula.compile preferDecimal text nesting).check := by
    unfold Formula.check
    split <;> trivial
  apply (Careful.lift checked).bind
  intro _ _
  have evaluated := (inEnvironment_careful (Formula.evaluate_careful preferDecimal text nesting)).handle
    fun e engine => (reportFailure_careful text e).bind fun _ _ => .lift (x := .error e) engine
  apply evaluated.bind
  intro v quiet
  apply (setVariable_careful _ (HostValue.ofValue_heeds quiet)).bind
  intro _ _
  apply Careful.read
  intro s sound
  apply (Careful.lift (format_expected sound v)).bind
  intro formatted _
  refine Careful.bind (.write ⟨sound.quiet, sound.supported⟩) fun _ _ => ?_
  exact (Careful.inProject _).bind fun _ _ => .pure trivial

end Session

namespace CommandLine.Repl

/-- A line in a sound session is answered without a crash, and leaves a sound session. -/
theorem respond_sound (line : String) {s : Session} (sound : s.Sound) (project : Project) :
    (∀ e, ((respond line s).run project).1.1 ≠ .crash e) ∧
      ((respond line s).run project).1.2.Sound := by
  have evaluated (line : String) : (∀ e, ((evaluate line s).run project).1.1 ≠ .crash e) ∧
      ((evaluate line s).run project).1.2.Sound := by
    have both := Session.run_careful line s project sound
    unfold Session.outcome at both
    unfold evaluate
    rw [StateT.run_bind]
    revert both
    rcases (s.perform (Session.run line)).run project with ⟨⟨result, s'⟩, project'⟩
    rintro ⟨expected, kept⟩
    refine ⟨?_, kept⟩
    intro e crashed
    simp only [bind, pure] at crashed
    split at crashed
    · cases crashed
    · cases crashed
    · have engine : (_ : Error).isEngine = true := expected
      rw [if_pos engine] at crashed
      cases crashed
  unfold respond
  dsimp only
  split
  · exact ⟨nofun, sound⟩
  split
  · exact ⟨nofun, sound⟩
  split
  · exact ⟨nofun, sound⟩
  split
  · exact ⟨nofun, sound⟩
  exact evaluated _

theorem dialogue_expected (output : String) (lines : List String) {s : Session} (sound : s.Sound)
    (project : Project) : ((dialogue output lines s).run project).1.2 = none := by
  -- every line leaves a sound session to the next one
  induction lines generalizing output s project with
  | nil => rfl
  | cons line rest ih =>
    have both := respond_sound line sound project
    unfold dialogue
    dsimp only
    rw [StateT.run_bind]
    revert both
    rcases (respond line s).run project with ⟨⟨reply, s'⟩, project'⟩
    rintro ⟨answered, kept⟩
    cases reply with
    | lines ls => exact ih _ kept project'
    | leave => rfl
    | crash e => exact absurd rfl (answered e)

end CommandLine.Repl

/-- Over the standard library and variables that hold anything but signaling decimals, a text that
    does not compile has a fault in its syntax, and evaluation fails with errors of the engine only.
    So do sessions that show results in a supported base, and no line ends their dialogues with an
    error. -/
theorem standard_errors_expected (preferDecimal : Bool) (text : String) (nesting : Nat)
    {env : Environment} (standard : env.Standard) (quiet : ∀ b ∈ env.bindings, b.2.Quiet) :
    (∀ e, (Formula.compile preferDecimal text nesting).check = .error e → ∃ fault, e = .parse fault) ∧
    Expected (((Formula.compile preferDecimal text nesting).evaluate Environment.host).outcome env).1 ∧
    ∀ (s : Session) (project : Project), s.environment = env →
      s.outputBase ∈ Value.supportedBases →
      Expected ((s.perform (Session.run text)).run project).1.1 ∧
      ∀ output lines, ((CommandLine.Repl.dialogue output lines s).run project).1.2 = none := by
  have evaluated := (Formula.evaluate_careful preferDecimal text nesting env ⟨standard, quiet⟩).1
  refine ⟨?_, evaluated.mono fun _ _ => trivial, ?_⟩
  · intro e failed
    unfold Formula.check at failed
    split at failed
    · cases failed
    · cases failed
      exact ⟨_, rfl⟩
  · rintro s project rfl supported
    have sound : s.Sound := ⟨⟨standard, quiet⟩, supported⟩
    exact ⟨(Session.run_careful text s project sound).1, fun output lines =>
      CommandLine.Repl.dialogue_expected output lines sound project⟩

theorem standard_errors_expected_round :
    let s := Session.create (.ofLibrary Registry.standard.members
      [("x", .decimal (.infinity false))]) true 16 100 "1"
    let f := Formula.compile true "round(1, x)"
    ((f.evaluate Environment.host).outcome s.environment).1 =
      .error (.call "round" (.digitsNotFinite (.decimal (.infinity false)))) ∧
    s.environment.Standard ∧ (∀ b ∈ s.environment.bindings, b.2.Quiet) ∧
    s.outputBase ∈ Value.supportedBases ∧
    ∀ project, ((CommandLine.Repl.dialogue "" ["round(1, x)", "x"] s).run project).1.2 = none := by
  intro s f
  have standard : s.environment.Standard := rfl
  have quiet : ∀ b ∈ s.environment.bindings, b.2.Quiet :=
    List.forall_mem_singleton.mpr (Decimal.heeds_of_quiet rfl)
  have supported : s.outputBase ∈ Value.supportedBases := by decide
  have compiled : f.outcome = .ok ⟨[.pushConstant (.integer 1), .pushVariable "x", .call "round" 2], 2⟩ := by
    cbv
  refine ⟨?_, standard, quiet, supported, ?_⟩
  · rw [Formula.evaluate_of_compile compiled]
    rfl
  · intro project
    exact ((standard_errors_expected true "round(1, x)" usualNesting standard quiet).2.2 s project rfl
      supported).2 ..

end Reckoner

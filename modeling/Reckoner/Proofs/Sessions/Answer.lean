import Mathlib
import Reckoner.Proofs.Grammar.Names
import Reckoner.Proofs.Sessions.Run
import Reckoner.Proofs.Values.Context
import Reckoner.Proofs.Values.Environments

namespace Reckoner

variable {preferDecimal : Bool}

/-- A value that comes back from the host as it was: a whole number of 64 bits, and, where decimals
    are preferred, no double for which there is a decimal. -/
def Value.Returns (preferDecimal : Bool) : Value → Prop
  | empty => True
  | integer n => fitsWord n = true
  | decimal _ => True
  | double x => preferDecimal = true → ∀ d, decimalOfDouble x ≠ .ok d

namespace HostValue

theorem toValue_ofValue {v : Value} (inContext : v.InContext preferDecimal)
    (returns : v.Returns preferDecimal) : (ofValue v).toValue preferDecimal = .ok v := by
  cases v with
  | empty => rfl
  | integer n => exact if_pos returns
  | decimal d =>
    obtain ⟨preferred, fits⟩ := inContext d rfl
    simp only [ofValue, toValue, ofFraction, fractional, if_pos preferred,
      Decimal.round_of_fits fits]
  | double x =>
    cases preferDecimal with
    | false => rfl
    | true =>
      have none := returns rfl
      have overflows := decimalOfDouble_overflows x
      simp only [ofValue, toValue, ofDouble, fractional, if_true]
      cases rounded : decimalOfDouble x with
      | ok d => exact absurd rounded (none d)
      | error signal =>
        obtain rfl : signal = .overflow := overflows.of_error rounded
        rfl

theorem toValue_double {x : Float} {d : Decimal} (rounded : decimalOfDouble x = .ok d) :
    (double x).toValue true = .ok (.decimal d) := by
  simp only [toValue, ofDouble, fractional, rounded, if_true]

end HostValue

namespace Session

variable {s s' : Session}

theorem advanced_eq_ok {text : String} {entry : Entry} (ran : s.advanced text = (.ok entry, s')) :
    ∃ p environment, (Formula.compile s.preferDecimal text s.nesting).outcome = .ok p ∧
      ((Formula.compile s.preferDecimal text s.nesting).evaluate Environment.host).outcome s.environment =
        (.ok entry.value, environment) ∧
      s.format entry.value = .ok entry.formatted ∧
      s' = ((s.settled environment).answered entry.value).withEntry entry := by
  have ended := s.advanced_ended text
  rw [ran] at ended
  cases ended with
  | returned compiled evaluated shown => exact ⟨_, _, compiled, evaluated, shown, rfl⟩

theorem advanced_of_evaluated {text : String} {p : Program} {environment : Environment} {v : Value}
    {formatted : String} (compiled : (Formula.compile s.preferDecimal text s.nesting).outcome = .ok p)
    (evaluated : ((Formula.compile s.preferDecimal text s.nesting).evaluate Environment.host).outcome
      s.environment = (.ok v, environment))
    (shown : s.format v = .ok formatted) :
    s.advanced text = (.ok ⟨text, v, formatted⟩,
      ((s.settled environment).answered v).withEntry ⟨text, v, formatted⟩) := by
  have shown : (s.settled environment).format v = .ok formatted := shown
  unfold advanced
  simp only [compiled, evaluated, concluded, shown]

theorem answered_get (s : Session) (v : Value) (entry : Entry) :
    ((s.answered v).withEntry entry).environment.get answerVariable = .ofValue v := by
  simp [withEntry, answered, settled, Environment.set, Environment.notify, Environment.get,
    Environment.member?, Entries.lookup_put, Member.value]

theorem compile_answer (preferDecimal : Bool) (nesting : Nat) :
    (Formula.compile preferDecimal answerVariable nesting).outcome =
      .ok (Expr.read answerVariable).program := by
  have parsed : Expr.ofText preferDecimal answerVariable nesting = .ok (.read answerVariable) :=
    Grammar.ofText_identifier (by decide)
  exact Formula.compile_of_parsed parsed

theorem advanced_answer {v : Value} {formatted : String}
    (converted : (s.environment.get answerVariable).toValue s.preferDecimal = .ok v)
    (shown : s.format v = .ok formatted) :
    s.advanced answerVariable = (.ok ⟨answerVariable, v, formatted⟩,
      ((s.settled s.environment).answered v).withEntry ⟨answerVariable, v, formatted⟩) := by
  have compiled := compile_answer s.preferDecimal s.nesting
  have evaluated : ((Formula.compile s.preferDecimal answerVariable s.nesting).evaluate
      Environment.host).outcome s.environment = (.ok v, s.environment) := by
    rw [Formula.evaluate_of_compile compiled, Expr.run_program, Expr.evaluate,
      Run.outcome_bind_of_ok (Environment.outcome_get s.environment answerVariable),
      Run.outcome_lift, converted]
  exact advanced_of_evaluated compiled evaluated shown

/-- In any session `ans` right after a text gives the value and the form of its entry once more, if
    the value is one that returns. Where decimals are preferred, a double in their range, or one that is
    no number, becomes its decimal. A whole number beyond 64 bits, which need not return, is never the
    result over an environment that is bounded. -/
theorem run_answer {text : String} {entry : Entry} {project project' : Project}
    (ran : (s.perform (run text)).run project = ((.ok entry, s'), project')) :
    ∃ result s'' project'',
      (s'.perform (run answerVariable)).run project' = ((result, s''), project'') ∧
      (entry.value.Returns s.preferDecimal →
        result = .ok ⟨answerVariable, entry.value, entry.formatted⟩) ∧
      (∀ x d, s.preferDecimal = true → entry.value = .double x → Binary64.isInfinite x = false →
        decimalOfDouble x = .ok d → result = .ok ⟨answerVariable, .decimal d, d.toText⟩) ∧
      (s.environment.Bounded → ∀ n, entry.value = .integer n → fitsWord n = true) := by
  obtain ⟨_, came⟩ := run_comes text s project
  have advanced : s.advanced text = (.ok entry, s') := congrArg Prod.fst (came.symm.trans ran)
  obtain ⟨p, environment, compiled, evaluated, shown, left⟩ := advanced_eq_ok advanced
  have stored : s'.environment.get answerVariable = .ofValue entry.value := left ▸ answered_get _ _ _
  have mode : s'.preferDecimal = s.preferDecimal := left ▸ rfl
  obtain ⟨project'', came'⟩ := run_comes answerVariable s' project'
  refine ⟨_, _, _, came', ?_, ?_, ?_⟩
  · intro returns
    have inContext := Formula.evaluate_inContext compiled evaluated
    have converted := HostValue.toValue_ofValue inContext returns
    rw [← stored, ← mode] at converted
    have shown' : s'.format entry.value = .ok entry.formatted := left ▸ shown
    rw [advanced_answer converted shown']
  · intro x d preferred double _ rounded
    have converted := HostValue.toValue_double rounded
    rw [double] at stored
    rw [← preferred, ← mode, ← HostValue.ofValue, ← stored] at converted
    rw [advanced_answer converted rfl]
    rfl
  · intro bounded n whole
    have admissible := Formula.evaluate_admissible compiled bounded evaluated
    rw [whole] at admissible
    exact admissible.wellFormed.1

theorem run_answer_of_complement :
    let s := create .standard true 16 100 "1"
    ∃ entry s' project', (s.perform (run "~0")).run default = ((.ok entry, s'), project') ∧
      entry.value = .integer (-1) ∧ entry.formatted = "0xFFFFFFFFFFFFFFFF" ∧
      ∃ s'' project'', (s'.perform (run answerVariable)).run project' =
        ((.ok ⟨answerVariable, entry.value, entry.formatted⟩, s''), project'') := by
  intro s
  have preferred : s.preferDecimal = true := rfl
  have limit : s.nesting = usualNesting := rfl
  have base : s.outputBase = 16 := rfl
  clear_value s
  have parsed : Expr.ofText true "~0" = .ok (.unary .complement (.constant (.integer 0))) := by cbv
  have compiled := Formula.compile_of_parsed parsed
  have evaluated : ((Formula.compile true "~0").evaluate Environment.host).outcome s.environment =
      (.ok (.integer (-1)), s.environment) := by
    rw [Formula.evaluate_of_compile compiled, Expr.run_program]
    rfl
  have shown : s.format (.integer (-1)) = .ok "0xFFFFFFFFFFFFFFFF" := by
    unfold format
    rw [base]
    cbv
  rw [← preferred, ← limit] at compiled evaluated
  obtain ⟨project', came⟩ := run_comes "~0" s default
  rw [advanced_of_evaluated compiled evaluated shown] at came
  obtain ⟨result, s'', project'', came', returned, -⟩ := run_answer came
  have word : Value.Returns s.preferDecimal (.integer (-1)) := (by decide : fitsWord (-1) = true)
  exact ⟨_, _, _, came, rfl, rfl, s'', project'', returned word ▸ came'⟩

/-- A product beyond the decimals is a double. Divided into their range it stays one, and read back it
    is a decimal. -/
theorem answer_changes_double_in_range :
    let s := create .standard true 10 100 "1"
    ∃ first second s' s'' project' project'',
      (s.perform (run "1e28*10/10")).run default = ((.ok first, s'), project') ∧
      (s'.perform (run "ans")).run project' = ((.ok second, s''), project'') ∧
      first.value = .double 1e28 ∧ first.formatted = "1e+28" ∧
      second.value = .decimal (.finite false 1 28) ∧ second.formatted = "1E+28" := by
  intro s
  have preferred : s.preferDecimal = true := rfl
  have limit : s.nesting = usualNesting := rfl
  clear_value s
  have parsed : Expr.ofText true "1e28*10/10" = .ok (.binary (.number .divide)
      (.binary (.number .multiply) (.constant (.decimal (.finite false 1 28))) (.constant (.integer 10)))
      (.constant (.integer 10))) := by cbv
  have compiled := Formula.compile_of_parsed parsed
  have product : BinaryOp.multiply.apply true (.decimal (.finite false 1 28)) (.integer 10) =
      .ok (.double 1e29) := eq_ok_of_toOption (by decide +kernel)
  have quotient : BinaryOp.divide.apply true (.double 1e29) (.integer 10) = .ok (.double 1e28) :=
    eq_ok_of_toOption (by decide +kernel)
  have evaluated : ((Formula.compile true "1e28*10/10").evaluate Environment.host).outcome
      s.environment = (.ok (.double 1e28), s.environment) := by
    rw [Formula.evaluate_of_compile compiled, Expr.run_program]
    simp only [Expr.evaluate, Operation.apply, pure_bind, product, quotient, Run.lift_ok,
      Run.outcome_pure]
  have shown (s : Session) : s.format (.double 1e28) = .ok "1e+28" :=
    congrArg Except.ok (by decide +kernel : Binary64.toText 1e28 = "1e+28")
  rw [← preferred, ← limit] at compiled evaluated
  have advanced := advanced_of_evaluated compiled evaluated (shown s)
  obtain ⟨project', came⟩ := run_comes "1e28*10/10" s default
  rw [advanced] at came
  generalize left : ((s.settled s.environment).answered _).withEntry _ = s' at came
  have converted : (s'.environment.get answerVariable).toValue s'.preferDecimal =
      .ok (.decimal (.finite false 1 28)) := by
    have preferred' : s'.preferDecimal = true := left ▸ preferred
    rw [preferred', ← left, answered_get]
    exact eq_ok_of_toOption (by decide +kernel)
  have shown' : s'.format (.decimal (.finite false 1 28)) = .ok "1E+28" :=
    congrArg Except.ok (by decide +kernel : (Decimal.finite false 1 28).toText = "1E+28")
  obtain ⟨project'', came'⟩ := run_comes answerVariable s' project'
  rw [advanced_answer converted shown'] at came'
  exact ⟨_, _, _, _, _, _, came, came', rfl, rfl, rfl, rfl⟩

end Session

end Reckoner

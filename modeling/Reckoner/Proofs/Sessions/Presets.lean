import Reckoner.Proofs.Display.Words
import Reckoner.Proofs.Grammar.Names
import Reckoner.Proofs.Sessions.Answer

namespace Reckoner

theorem Environment.get_set (environment : Environment) (name : String) (value : HostValue) :
    (environment.set name value).get name = value := by
  simp [set, notify, get, member?, Entries.lookup_put, Member.value]

namespace Session

variable {s s' : Session} {nesting : Nat} {name text : String}

def assigned (s : Session) (name : String) (value : HostValue) : Session :=
  s.settled (s.environment.set name value)

theorem assigned_get (s : Session) (name : String) (value : HostValue) :
    (s.assigned name value).environment.get name = value := s.environment.get_set name value

theorem Reports.discard {α : Type} {x : Action α} {a : α} {reports : List Report}
    (ran : Reports x s (.ok a) s' reports) :
    Reports (Functor.discard x) s (.ok ()) s' reports := by
  have same : Functor.discard x = x >>= fun _ => Pure.pure () := map_eq_pure_bind _ x
  rw [same]
  exact ran.bind_silent (.pure () s')

theorem start_reports (s : Session) : ∃ reports, Reports start s (.ok ()) s reports :=
  ⟨_, .read (.report ⟨_, _, _, _, _, _⟩ s)⟩

theorem assign_evaluated (name : String) {p : Program} {v : Value} {environment : Environment}
    (compiled : (Formula.compile s.preferDecimal text s.nesting).outcome = .ok p)
    (evaluated : ((Formula.compile s.preferDecimal text s.nesting).evaluate Environment.host).outcome
      s.environment = (.ok v, environment)) :
    ∃ reports, Reports (assign name text) s (.ok v)
      ((s.settled environment).assigned name (.ofValue v)) reports := by
  have ran := assign_reports name compiled
  have assigned : ((Formula.compile s.preferDecimal text s.nesting).assign Environment.host name).outcome
      s.environment = (.ok v, environment.set name (.ofValue v)) := by
    rw [Formula.assign, Run.outcome_bind_of_ok evaluated]
    rfl
  dsimp only at ran
  rw [assigned] at ran
  exact ⟨_, ran⟩

/-- What a name is when a formula reads it. -/
def reading (preferDecimal : Bool) (nesting : Nat) (name : String) (environment : Environment) :
    Except Error Value :=
  (((Formula.compile preferDecimal name nesting).evaluate Environment.host).outcome environment).1

theorem evaluate_identifier (identifier : isIdentifier name = true) (preferDecimal : Bool)
    (environment : Environment) :
    ((Formula.compile preferDecimal name nesting).evaluate Environment.host).outcome environment =
      ((environment.get name).toValue preferDecimal, environment) := by
  have parsed : Expr.ofText preferDecimal name nesting = _ := Grammar.ofText_identifier identifier
  rw [Formula.evaluate_of_compile (Formula.compile_of_parsed parsed), Expr.run_program, Expr.evaluate,
    Run.outcome_bind_of_ok (Environment.outcome_get environment name), Run.outcome_lift]

theorem reading_of_get (identifier : isIdentifier name = true) (preferDecimal : Bool)
    {environment : Environment} {value : HostValue} (found : environment.get name = value) :
    reading preferDecimal nesting name environment = value.toValue preferDecimal := by
  rw [reading, evaluate_identifier identifier, found]

/-- Nothing, a truth value or a whole number of 64 bits. -/
inductive Scalar : HostValue → Prop
  | none : Scalar .none
  | bool (b : Bool) : Scalar (.bool b)
  | integer (n : Int) (fits : fitsWord n = true) : Scalar (.integer n)

/-- An environment without a variable for the texts that are names. -/
structure Nameless (environment : Environment) : Prop where
  none : environment.get "None" = .none
  bool (b : Bool) : environment.get (HostValue.bool b).display = .none

theorem configured_nameless {config : Config} {id : String}
    (configured : Session.configured config id nesting = .ok s) :
    s.preferDecimal = (config.get "prefer_decimal").isTruthy ∧ Nameless s.environment := by
  obtain ⟨base, -, configured⟩ := bind_eq_ok.mp configured
  obtain ⟨size, -, created⟩ := bind_eq_ok.mp configured
  obtain rfl := Except.ok.inj created
  exact ⟨rfl, rfl, fun b => by cases b <;> rfl⟩

theorem preset_evaluates {v : HostValue} (scalar : Scalar v) (preferDecimal : Bool) (nesting : Nat)
    {environment : Environment} (nameless : Nameless environment) :
    ∃ p w, (Formula.compile preferDecimal v.display nesting).outcome = .ok p ∧
      ((Formula.compile preferDecimal v.display nesting).evaluate Environment.host).outcome environment =
        (.ok w, environment) ∧ w.Returns preferDecimal ∧
      (v = .integer leastWord → w.tag = (if preferDecimal then .decimal else .double) ∧
        w.number? = some (leastWord : ℚ)) ∧
      (v = .none ∨ (∃ n, v = .integer n ∧ n ≠ leastWord) → v.toValue preferDecimal = .ok w) := by
  have named {name : String} (identifier : isIdentifier name = true) (unset : environment.get name = .none) :
      ∃ p, (Formula.compile preferDecimal name nesting).outcome = .ok p ∧
        ((Formula.compile preferDecimal name nesting).evaluate Environment.host).outcome environment =
          (.ok .empty, environment) := by
    refine ⟨_, Formula.compile_of_parsed (Grammar.ofText_identifier identifier), ?_⟩
    rw [evaluate_identifier identifier, unset]
    rfl
  have yields {text : String} {w : Value} (yields : Formula.Yields preferDecimal text w) :
      ∃ p, (Formula.compile preferDecimal text nesting).outcome = .ok p ∧
        ((Formula.compile preferDecimal text nesting).evaluate Environment.host).outcome environment =
          (.ok w, environment) := by
    obtain ⟨valid, evaluates⟩ := yields nesting
    unfold Formula.isValid at valid
    rcases compiled : (Formula.compile preferDecimal text nesting).outcome with fault | p
    · rw [compiled] at valid
      cases valid
    · exact ⟨p, rfl, evaluates Environment.host environment⟩
  cases scalar with
  | none =>
    have identifier : isIdentifier "None" = true := by decide
    obtain ⟨p, compiled, evaluated⟩ := named identifier nameless.none
    exact ⟨p, .empty, compiled, evaluated, trivial, nofun, fun _ => rfl⟩
  | bool b =>
    have identifier : isIdentifier (HostValue.bool b).display = true := by cases b <;> decide
    obtain ⟨p, compiled, evaluated⟩ := named identifier (nameless.bool b)
    exact ⟨p, .empty, compiled, evaluated, trivial, nofun, nofun⟩
  | integer n fits =>
    by_cases least : n = leastWord
    · subst least
      obtain ⟨w, meant, tag, value⟩ := leastWord_yields preferDecimal
      obtain ⟨p, compiled, evaluated⟩ := yields meant
      refine ⟨p, w, compiled, evaluated, ?_, fun _ => ⟨tag, value⟩, ?_⟩
      · cases w with
        | empty | decimal => trivial
        | integer => cases preferDecimal <;> cases tag
        | double x =>
          rintro rfl
          cases tag
      · rintro (absent | ⟨n, same, other⟩)
        · cases absent
        · exact absurd (HostValue.integer.inj same).symm other
    · have word : (n.natAbs : Int) ≤ greatestWord := by
        have bounds := fitsWord_iff.mp fits
        unfold leastWord greatestWord at *
        omega
      have meant := Decimal.toText_whole preferDecimal (decide (n < 0)) word
      rw [Decimal.signed_natAbs] at meant
      obtain ⟨p, compiled, evaluated⟩ := yields meant
      have same : (HostValue.integer n).display = (Decimal.ofInt n).toText := intText_eq_toText n
      rw [same]
      exact ⟨p, .integer n, compiled, evaluated, fits, fun other => absurd (HostValue.integer.inj other) least,
        fun _ => if_pos fits⟩

theorem preset_read {config : Config} {v : HostValue} {p : Program} {w : Value}
    (preset : config.get "variables" = .mapping [(name, v)]) (identifier : isIdentifier name = true)
    (compiled : (Formula.compile s.preferDecimal v.display s.nesting).outcome = .ok p)
    (evaluated : ((Formula.compile s.preferDecimal v.display s.nesting).evaluate Environment.host).outcome
      s.environment = (.ok w, s.environment))
    (returns : w.Returns s.preferDecimal) (project : Project) :
    ∃ s' project', (s.perform (startPresets config)).run project = ((.ok (), s'), project') ∧
      s'.preferDecimal = s.preferDecimal ∧ s'.nesting = s.nesting ∧
      reading s'.preferDecimal s'.nesting name s'.environment = .ok w := by
  obtain ⟨first, started⟩ := start_reports s
  obtain ⟨second, bound⟩ := assign_evaluated name compiled evaluated
  have ran : Reports (startPresets config) s (.ok ())
      ((s.settled s.environment).assigned name (.ofValue w)) (first ++ second) := by
    unfold startPresets
    rw [preset]
    exact started.bind (bound.discard.bind_silent (.pure () _))
  have back := HostValue.toValue_ofValue (Formula.evaluate_inContext compiled evaluated) returns
  refine ⟨_, _, ran project, rfl, rfl, ?_⟩
  exact (reading_of_get identifier _ (assigned_get _ name _)).trans back

/-- A session whose configuration presets a variable to a scalar begins. Formulas then read from the
    variable what the text of the scalar evaluates to when the session begins. For nothing and for whole
    numbers of 64 bits this is what they read from a variable that the host has set to the value, but the
    least number is read as the decimal or double that is equal to it. -/
theorem preset_reads_as_host_value {config : Config} {id : String} {v : HostValue}
    (configured : Session.configured config id nesting = .ok s)
    (preset : config.get "variables" = .mapping [(name, v)]) (identifier : isIdentifier name = true)
    (scalar : Scalar v) (project : Project) :
    ∃ s' project' w, (s.perform (startPresets config)).run project = ((.ok (), s'), project') ∧
      s'.preferDecimal = (config.get "prefer_decimal").isTruthy ∧
      reading s'.preferDecimal s'.nesting name s'.environment = .ok w ∧
      ((Formula.compile s'.preferDecimal v.display s'.nesting).evaluate Environment.host).outcome
        s.environment = (.ok w, s.environment) ∧
      (v = .integer leastWord → w.tag = (if s'.preferDecimal then .decimal else .double) ∧
        w.number? = some (leastWord : ℚ)) ∧
      (v = .none ∨ (∃ n, v = .integer n ∧ n ≠ leastWord) → v.toValue s'.preferDecimal = .ok w ∧
        reading s'.preferDecimal s'.nesting name (s'.environment.set name v) = .ok w) := by
  obtain ⟨preferred, nameless⟩ := configured_nameless configured
  obtain ⟨p, w, compiled, evaluated, returns, least, other⟩ :=
    preset_evaluates scalar s.preferDecimal s.nesting nameless
  obtain ⟨s', project', ran, mode, limit, read⟩ :=
    preset_read preset identifier compiled evaluated returns project
  refine ⟨s', project', w, ran, mode.trans preferred, read, ?_, ?_, fun different => ?_⟩
  · rw [mode, limit]
    exact evaluated
  · rw [mode]
    exact least
  · have meant := other different
    rw [mode]
    exact ⟨meant, (reading_of_get identifier _ (Environment.get_set _ name v)).trans meant⟩

theorem preset_reads_as_host_value_negative :
    let config : Config := [("prefer_decimal", .bool true), ("variables", .mapping [("x_1", .integer (-7))])]
    ∃ s s' project', Session.configured config "1" = .ok s ∧
      config.get "variables" = .mapping [("x_1", .integer (-7))] ∧ isIdentifier "x_1" = true ∧
      fitsWord (-7) = true ∧
      (s.perform (startPresets config)).run default = ((.ok (), s'), project') ∧
      reading s'.preferDecimal s'.nesting "x_1" s'.environment = .ok (.integer (-7)) := by
  intro config
  have configured : Session.configured config "1" = .ok (create .standard true 10 100 "1") := rfl
  have preset : config.get "variables" = .mapping [("x_1", .integer (-7))] := rfl
  have identifier : isIdentifier "x_1" = true := by decide
  have fits : fitsWord (-7) = true := by decide
  obtain ⟨s', project', w, ran, -, read, -, -, other⟩ :=
    preset_reads_as_host_value configured preset identifier (.integer (-7) fits) default
  have meant := (other (.inr ⟨-7, rfl, by decide⟩)).1
  cases Except.ok.inj meant
  exact ⟨_, s', project', configured, preset, identifier, fits, ran, read⟩

/-- The least whole number is preset to a double, although the host means the number by it. -/
theorem preset_changes_least_word :
    let config : Config := [("variables", .mapping [("x", .integer leastWord)])]
    isIdentifier "x" = true ∧ Environment.standard.contains "x" = false ∧ fitsWord leastWord = true ∧
    ∃ s s' project', Session.configured config "1" = .ok s ∧
      (s.perform (startPresets config)).run default = ((.ok (), s'), project') ∧
      (∃ w, reading s'.preferDecimal s'.nesting "x" s'.environment = .ok w ∧ w.tag = .double) ∧
      (HostValue.integer leastWord).toValue s'.preferDecimal = .ok (.integer leastWord) := by
  intro config
  have fits : fitsWord leastWord = true := by decide
  have identifier : isIdentifier "x" = true := by decide
  obtain ⟨s, configured⟩ : ∃ s, Session.configured config "1" = .ok s := ⟨_, rfl⟩
  have preset : config.get "variables" = .mapping [("x", .integer leastWord)] := rfl
  obtain ⟨preferred, nameless⟩ := configured_nameless configured
  obtain ⟨p, w, compiled, evaluated, returns, least, -⟩ :=
    preset_evaluates (.integer _ fits) s.preferDecimal s.nesting nameless
  obtain ⟨s', project', ran, -, -, read⟩ := preset_read preset identifier compiled evaluated returns default
  have double : w.tag = .double := by
    rw [(least rfl).1, preferred]
    rfl
  refine ⟨identifier, by decide, fits, s, s', project', configured, ran, ⟨w, read, double⟩, ?_⟩
  rw [HostValue.toValue, HostValue.ofWhole, if_pos fits]

end Session

end Reckoner

import Reckoner.Proofs.Evaluation.Writes
import Reckoner.Proofs.Sessions.Run

namespace Reckoner

namespace Session

/-- A text that was run, with the sessions before and after it. -/
structure Call where
  text : String
  before : Session
  result : Except Error Entry
  after : Session

/-- Runs texts one after the other, whatever comes of them. -/
def calls : List String → Session → InProject (List Call × Session)
  | [], s => return ([], s)
  | text :: texts, s => do
    let (result, s') ← s.perform (run text)
    let (later, last) ← calls texts s'
    return (⟨text, s, result, s'⟩ :: later, last)

theorem calls_cons {text : String} {texts : List String} {s s' last : Session}
    {result : Except Error Entry} {later : List Call} {project project' project'' : Project}
    (ran : (s.perform (run text)).run project = ((result, s'), project'))
    (rest : (calls texts s').run project' = ((later, last), project'')) :
    (calls (text :: texts) s).run project = ((⟨text, s, result, s'⟩ :: later, last), project'') := by
  rw [calls, StateT.run_bind, ran]
  show (calls texts s' >>= _).run project' = _
  rw [StateT.run_bind, rest]
  rfl

/-- Each call begins where the one before it ended. -/
inductive Linked : Session → List Call → Session → Prop
  | nil (s : Session) : Linked s [] s
  | cons {s : Session} {c : Call} {later : List Call} {last : Session} (begins : c.before = s)
      (rest : Linked c.after later last) : Linked s (c :: later) last

def entries (calls : List Call) : List Entry := calls.filterMap fun c => c.result.toOption

def evaluation (preferDecimal : Bool) (nesting : Nat) (library : List (String × Member))
    (bindings : List (String × HostValue)) (text : String) :
    Except Error Value × Environment × List Access :=
  ((Formula.compile preferDecimal text nesting).evaluate Environment.host.recorded).outcome
    (⟨bindings, library, [listener], []⟩, [])

def Call.answer (c : Call) : List Access :=
  match c.result with
  | .ok entry => [.set answerVariable (.ofValue entry.value)]
  | .error _ => []

/-- A call returns what its text evaluates to over the variables that it finds, or fails as the
    evaluation does. It leaves the variables as the evaluation does, and `ans` as the result. -/
structure Call.Booked (preferDecimal : Bool) (nesting : Nat) (library : List (String × Member))
    (c : Call) : Prop where
  succeeds : ∀ v, (evaluation preferDecimal nesting library c.before.environment.bindings c.text).1 = .ok v →
    ∃ formatted, c.before.format v = .ok formatted ∧ c.result = .ok ⟨c.text, v, formatted⟩
  fails : ∀ e, (evaluation preferDecimal nesting library c.before.environment.bindings c.text).1 = .error e →
    ∃ e', c.result = .error e'
  answers : ∀ entry, c.result = .ok entry →
    c.after.environment.get answerVariable = .ofValue entry.value
  writes : c.after.environment.bindings =
    ((evaluation preferDecimal nesting library c.before.environment.bindings c.text).2.2 ++ c.answer).foldl
      Access.write c.before.environment.bindings

/-- A session over a library that is the only listener of its environment. -/
structure Alone (preferDecimal : Bool) (nesting : Nat) (library : List (String × Member)) (size : Nat)
    (s : Session) : Prop where
  environment : s.environment = ⟨s.environment.bindings, library, [listener], []⟩
  mode : s.preferDecimal = preferDecimal
  nesting : s.nesting = nesting
  supported : s.outputBase ∈ Value.supportedBases
  size : s.historySize = size

variable {preferDecimal : Bool} {nesting : Nat} {library : List (String × Member)} {size : Nat} {s : Session}

theorem Alone.advance (alone : s.Alone preferDecimal nesting library size) (text : String) :
    (⟨text, s, (s.advanced text).1, (s.advanced text).2⟩ : Call).Booked preferDecimal nesting library ∧
    (s.advanced text).2.Alone preferDecimal nesting library size ∧
    (s.advanced text).2.history = match (s.advanced text).1 with
      | .ok entry => lastEntries size (s.history ++ [entry])
      | .error _ => s.history := by
  obtain ⟨⟨bindings, library', listeners, journal⟩, mode, nesting, base, size', id, history⟩ := s
  obtain ⟨environment, rfl, rfl, supported, rfl⟩ := alone
  cases environment
  obtain ⟨accesses, recorded, bound, library', listeners⟩ :=
    (Formula.compile mode text nesting).evaluate_writes ⟨bindings, library, [listener], []⟩
  have evaluated : evaluation mode nesting library bindings text = _ := recorded
  unfold advanced
  dsimp only
  cases compiled : (Formula.compile mode text nesting).outcome with
  | error fault =>
    have unrun : ((Formula.compile mode text nesting).evaluate Environment.host).outcome
        ⟨bindings, library, [listener], []⟩ =
          (.error (.notCompiled text), ⟨bindings, library, [listener], []⟩) := by
      unfold Formula.evaluate Formula.program
      rw [compiled]
      rfl
    rw [unrun] at evaluated bound
    refine ⟨⟨?_, fun _ _ => ⟨_, rfl⟩, nofun, ?_⟩, ⟨rfl, rfl, rfl, supported, rfl⟩, rfl⟩
    · intro v succeeded
      cases (congrArg Prod.fst evaluated).symm.trans succeeded
    · simp only [evaluated, Call.answer, List.append_nil]
      exact bound
  | ok p =>
    rcases ran : ((Formula.compile mode text nesting).evaluate Environment.host).outcome
      ⟨bindings, library, [listener], []⟩ with ⟨e | v, env⟩ <;>
      rw [ran] at evaluated bound library' listeners <;> dsimp only at *
    · refine ⟨⟨?_, fun _ _ => ⟨_, rfl⟩, nofun, ?_⟩, ⟨?_, rfl, rfl, supported, rfl⟩, rfl⟩
      · intro v succeeded
        cases (congrArg Prod.fst evaluated).symm.trans succeeded
      · simp only [evaluated, Call.answer, List.append_nil]
        exact bound
      · simp only [settled, library', listeners]
    · obtain ⟨formatted, shown⟩ := @format_succeeds
        (settled ⟨⟨bindings, library, [listener], []⟩, mode, nesting, base, size', id, history⟩ env)
        supported v
      unfold concluded
      rw [shown]
      refine ⟨⟨?_, ?_, ?_, ?_⟩, ⟨?_, rfl, rfl, supported, rfl⟩, rfl⟩
      · intro v' succeeded
        cases (congrArg Prod.fst evaluated).symm.trans succeeded
        exact ⟨formatted, shown, rfl⟩
      · intro e failed
        cases (congrArg Prod.fst evaluated).symm.trans failed
      · rintro entry ⟨⟩
        simp [withEntry, answered, settled, Environment.set, Environment.notify, Environment.get,
          Environment.member?, Entries.lookup_put, Member.value]
      · simp only [evaluated, Call.answer, List.foldl_append, ← bound]
        rfl
      · simp only [withEntry, answered, settled, Environment.set, Environment.notify, library', listeners]

/-- The latest entries are kept, and as many as there are room for. -/
structure Latest (size : Nat) (history all : List Entry) : Prop where
  suffix : history <:+ all
  length : history.length = min size all.length

theorem Latest.push {history all : List Entry} (latest : Latest size history all) (entry : Entry) :
    Latest size (lastEntries size (history ++ [entry])) (all ++ [entry]) := by
  obtain ⟨⟨before, rfl⟩, length⟩ := latest
  constructor
  · refine (List.drop_suffix _ _).trans ?_
    rw [List.append_assoc]
    exact List.suffix_append before (history ++ [entry])
  · simp only [lastEntries, List.length_drop, List.length_append, List.length_singleton] at length ⊢
    omega

/-- What holds of every call holds of a run of texts, and the history follows it. -/
theorem calls_booked (texts : List String) (alone : s.Alone preferDecimal nesting library size)
    {past : List Entry} (latest : Latest size s.history past) (project : Project) :
    ∃ called last project', (calls texts s).run project = ((called, last), project') ∧
      called.map Call.text = texts ∧ Linked s called last ∧
      (∀ c ∈ called, c.Booked preferDecimal nesting library) ∧
      Latest size last.history (past ++ entries called) := by
  induction texts generalizing s past project with
  | nil =>
    exact ⟨[], s, project, rfl, rfl, .nil s, List.forall_mem_nil _,
      (List.append_nil past).symm ▸ latest⟩
  | cons text texts ih =>
    obtain ⟨project', ran⟩ := run_comes text s project
    obtain ⟨booked, alone', history⟩ := alone.advance text
    generalize (s.advanced text).1 = result at *
    generalize (s.advanced text).2 = s' at *
    have rest : Latest size s'.history (past ++ entries [⟨text, s, result, s'⟩]) := by
      rw [history]
      cases result with
      | error e => exact (List.append_nil past).symm ▸ latest
      | ok entry => exact latest.push entry
    obtain ⟨later, last, project'', ran', same, linked, all, kept⟩ := ih alone' rest project'
    refine ⟨⟨text, s, result, s'⟩ :: later, last, project'', calls_cons ran ran', ?_,
      .cons rfl linked, List.forall_mem_cons.mpr ⟨booked, all⟩, ?_⟩
    · rw [List.map_cons, same]
    · rw [List.append_assoc, entries, entries, ← List.filterMap_append] at kept
      exact kept

/-- Over any run of texts, in a supported base, the session of an environment without other
    listeners keeps the latest entries, at least one. Every call returns what its text evaluates to
    over the variables left by the calls before it, also by those that failed; behind one that
    succeeds `ans` is its result; and the variables change by the writes of the formulas only. -/
theorem run_keeps_books {environment : Environment} (alone : environment.listeners = [])
    (silent : environment.journal = []) {base : Int} (supported : base ∈ Value.supportedBases)
    (preferDecimal : Bool) (nesting : Nat) (historySize : Int) (id : String) (texts : List String)
    (project : Project) :
    ∃ called last project',
      (calls texts (create environment preferDecimal base historySize id nesting)).run project =
        ((called, last), project') ∧
      called.map Call.text = texts ∧
      Linked (create environment preferDecimal base historySize id nesting) called last ∧
      (∀ c ∈ called, c.Booked preferDecimal nesting environment.library) ∧
      last.history <:+ entries called ∧
      last.history.length = min (max historySize 1).toNat (entries called).length := by
  have created : (create environment preferDecimal base historySize id nesting).Alone preferDecimal
      nesting environment.library (max historySize 1).toNat := by
    refine ⟨?_, rfl, rfl, supported, rfl⟩
    simp only [create, Environment.subscribe, alone, silent, List.nil_append]
  have none : Latest (max historySize 1).toNat
      (create environment preferDecimal base historySize id nesting).history [] :=
    ⟨List.suffix_refl _, (Nat.min_zero _).symm⟩
  obtain ⟨called, last, project', ran, same, linked, booked, latest⟩ :=
    calls_booked texts created none project
  exact ⟨called, last, project', ran, same, linked, booked, latest.suffix, latest.length⟩

theorem run_keeps_books_of_three :
    Environment.standard.listeners = [] ∧ Environment.standard.journal = [] ∧
    16 ∈ Value.supportedBases ∧
    ∃ called last project',
      (calls ["(ans=7)+1", "(x=ans)/0", "#ans-1"] (create .standard true 16 0 "1")).run default =
        ((called, last), project') ∧
      called.map Call.text = ["(ans=7)+1", "(x=ans)/0", "#ans-1"] ∧
      Linked (create .standard true 16 0 "1") called last ∧
      (∀ c ∈ called, c.Booked true usualNesting Registry.standard.members) ∧
      last.history <:+ entries called ∧ last.history.length = min 1 (entries called).length :=
  have supported : (16 : Int) ∈ Value.supportedBases := by decide
  ⟨rfl, rfl, supported, run_keeps_books rfl rfl supported true usualNesting 0 "1" _ default⟩

end Session

end Reckoner

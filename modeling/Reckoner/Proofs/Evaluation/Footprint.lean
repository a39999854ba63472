import Mathlib
import Reckoner.Proofs.Entries
import Reckoner.Proofs.Evaluation.Agreement
import Reckoner.Proofs.Evaluation.Compiled
import Reckoner.Proofs.Evaluation.Executed
import Reckoner.Proofs.Grammar.Derivation
import Reckoner.Proofs.Grammar.Origins
import Reckoner.Proofs.Scanning.Layout

namespace Reckoner

/-- The variable that an instruction changes. -/
def Instruction.target? : Instruction → Option String
  | store name => some name
  | delete name => some name
  | _ => none

theorem Instruction.eq_of_target {i : Instruction} {name : String} (target : i.target? = some name) :
    i = .store name ∨ i = .delete name := by
  cases i with
  | store other =>
    cases target
    exact .inl rfl
  | delete other =>
    cases target
    exact .inr rfl
  | _ => cases target

namespace Machine

variable {σ : Type}

/-- The instructions of code that are carried out: all of them, or those before one that fails. -/
def CarriedOut (host : Host σ) (preferDecimal : Bool) (code : List Instruction) (stack : Stack) (s : σ)
    (done : List Instruction) : Prop :=
  ∃ stack' s', (exec host preferDecimal done stack).outcome s = (.ok stack', s') ∧
    (done = code ∨ ∃ i rest fault s'', code = done ++ i :: rest ∧
      (step host preferDecimal i stack').outcome s' = (.error fault, s''))

theorem executed_carriedOut (host : Host σ) (preferDecimal : Bool) (code : List Instruction)
    (stack : Stack) (s : σ) :
    CarriedOut host preferDecimal code stack s
      ((executed host preferDecimal code stack s).map Prod.fst) := by
  induction code generalizing stack s with
  | nil => exact ⟨stack, s, rfl, .inl rfl⟩
  | cons i code ih =>
    rw [executed]
    rcases ran : (step host preferDecimal i stack).outcome s with ⟨fault | stack₁, s₁⟩
    · exact ⟨stack, s, rfl, .inr ⟨i, code, fault, s₁, rfl, ran⟩⟩
    · obtain ⟨stack', s', before, ends⟩ := ih stack₁ s₁
      refine ⟨stack', s', ?_, ?_⟩
      · rw [List.map_cons, exec, Run.outcome_bind_of_ok ran]
        exact before
      · rcases ends with all | ⟨j, rest, fault, s'', split, fails⟩
        · exact .inl (congrArg (i :: ·) all)
        · exact .inr ⟨j, rest, fault, s'', congrArg (i :: ·) split, fails⟩

theorem CarriedOut.subset {host : Host σ} {preferDecimal : Bool} {code done : List Instruction}
    {stack : Stack} {s : σ} (carried : CarriedOut host preferDecimal code stack s done) :
    done ⊆ code := by
  obtain ⟨-, -, -, rfl | ⟨i, rest, -, -, rfl, -⟩⟩ := carried
  · exact List.Subset.refl _
  · exact List.subset_append_left ..

theorem targets_of_executed (preferDecimal : Bool) (code : List Instruction) (stack : Stack)
    (env : Environment) :
    ((changes preferDecimal code stack env).filterMap Access.notice?).map Prod.fst =
      ((executed Environment.host preferDecimal code stack env).map Prod.fst).filterMap
        Instruction.target? := by
  rw [changes, List.filterMap_filterMap, List.map_filterMap, List.filterMap_map]
  refine List.filterMap_congr fun ⟨i, found⟩ member => ?_
  cases i with
  | store name =>
    obtain ⟨v, items, top⟩ := items_of_executed_store member
    simp [change?, top, Access.notice?, Instruction.target?]
  | _ => rfl

theorem changes_of_untargeted {preferDecimal : Bool} {code : List Instruction} {stack : Stack}
    {env : Environment} (untargeted : ∀ i ∈ code, i.target? = none) :
    changes preferDecimal code stack env = [] := by
  apply List.filterMap_eq_nil_iff.mpr
  rintro ⟨i, found⟩ member
  have carried := executed_carriedOut Environment.host preferDecimal code stack env
  have none := untargeted i (carried.subset (List.mem_map_of_mem member))
  cases i with
  | store name => cases none
  | delete name => cases none
  | _ => rfl

end Machine

theorem Access.lookup_write {c : Access} {name : String} (other : ∀ n, c.notice? = some n → n.1 ≠ name)
    (bindings : List (String × HostValue)) : (c.write bindings).lookup name = bindings.lookup name := by
  cases c with
  | set changed value => rw [write, Entries.lookup_put, if_neg (other _ rfl).symm]
  | delete changed => rw [write, Entries.lookup_erase, if_neg (other _ rfl).symm]
  | get _ => rfl
  | invoke _ _ => rfl

theorem Access.lookup_foldl_write {changes : List Access} {name : String}
    (others : name ∉ (changes.filterMap Access.notice?).map Prod.fst)
    (bindings : List (String × HostValue)) :
    (changes.foldl Access.write bindings).lookup name = bindings.lookup name := by
  induction changes generalizing bindings with
  | nil => rfl
  | cons c changes ih =>
    rw [List.foldl_cons, ih, lookup_write]
    · intro n told same
      exact others (List.mem_map.mpr ⟨n, List.mem_filterMap.mpr ⟨c, List.mem_cons_self, told⟩, same⟩)
    · intro later
      obtain ⟨n, told, same⟩ := List.mem_map.mp later
      obtain ⟨d, behind, told⟩ := List.mem_filterMap.mp told
      exact others
        (List.mem_map.mpr ⟨n, List.mem_filterMap.mpr ⟨d, List.mem_cons_of_mem c behind, told⟩, same⟩)

namespace Environment

/-- Environments that differ in nothing but their journals. -/
structure Twin (env env' : Environment) : Prop where
  bindings : env'.bindings = env.bindings
  library : env'.library = env.library
  listeners : env'.listeners = env.listeners

/-- What may have become of an environment by the instructions of code of which some have been carried
    out: only the variables of stores and deletions have changed, and for each of these that has been
    carried out every listener has been told of its variable. -/
structure Spared (code done : List Instruction) (env last : Environment) : Prop where
  library : last.library = env.library
  listeners : last.listeners = env.listeners
  bindings : ∀ name, .store name ∉ code → .delete name ∉ code →
    last.bindings.lookup name = env.bindings.lookup name
  journal : ∃ (occurred : List Occurrence) (notices : List Notice),
    last.journal = env.journal ++ occurred ∧
    occurred.filterMap Occurrence.notice? = notices.flatMap (fun n => env.listeners.map (·, n)) ∧
    notices.map Prod.fst = done.filterMap Instruction.target?

theorem Changed.spared {changes : List Access} {code done : List Instruction} {env last : Environment}
    (changed : Changed changes env last) (inside : done ⊆ code)
    (targets : (changes.filterMap Access.notice?).map Prod.fst = done.filterMap Instruction.target?) :
    env.Spared code done last := by
  obtain ⟨bindings, library, listeners, occurred, journal, told⟩ := changed
  refine ⟨library, listeners, ?_, occurred, _, journal, told, targets⟩
  intro name unstored undeleted
  rw [bindings, Access.lookup_foldl_write]
  rw [targets]
  intro member
  obtain ⟨i, carried, target⟩ := List.mem_filterMap.mp member
  rcases Instruction.eq_of_target target with rfl | rfl
  · exact unstored (inside carried)
  · exact undeleted (inside carried)

theorem Twin.member? {env env' : Environment} (twin : env.Twin env') (name : String) :
    env'.member? name = env.member? name := by
  rw [Environment.member?, Environment.member?, twin.bindings, twin.library]

end Environment

def Run.Oblivious {α : Type} (x : Run Environment α) : Prop :=
  x.Agrees Environment.Twin Eq x

namespace Run.Oblivious

variable {α β : Type}

theorem lift (x : Except Error α) : (liftM x : Run Environment α).Oblivious :=
  Agrees.lift (.of_eq fun _ => rfl)

theorem bind {x : Run Environment α} {f : α → Run Environment β} (first : x.Oblivious)
    (second : ∀ a, (f a).Oblivious) : (x >>= f).Oblivious := by
  apply Agrees.bind first
  rintro a _ rfl
  exact second a

end Run.Oblivious

namespace Environment

theorem get_oblivious (name : String) : (host.get name).Oblivious := by
  intro env env' twin
  rw [outcome_get, outcome_get, get, get, twin.member?]
  exact ⟨rfl, twin⟩

theorem set_oblivious (name : String) (value : HostValue) : (host.set name value).Oblivious := by
  intro env env' twin
  exact ⟨rfl, congrArg (Entries.put name value) twin.bindings, twin.library, twin.listeners⟩

theorem delete_oblivious (name : String) : (host.delete name).Oblivious := by
  intro env env' twin
  exact ⟨rfl, congrArg (Entries.erase name) twin.bindings, twin.library, twin.listeners⟩

theorem record_twin {env env' : Environment} (twin : env.Twin env') (f : Function)
    (args : List HostValue) : (env.record f args).Twin (env'.record f args) := by
  unfold record
  cases f.label with
  | none => exact twin
  | some label => exact ⟨twin.bindings, twin.library, twin.listeners⟩

theorem invoke_oblivious (name : String) (args : List HostValue) :
    (host.invoke name args).Oblivious := by
  intro env env' twin
  rw [outcome_invoke, outcome_invoke, twin.member?]
  rcases env.member? name with _ | v | f
  · exact ⟨rfl, twin⟩
  · exact ⟨rfl, twin⟩
  · simp only [outcome_call]
    cases f.accept args with
    | error e => exact ⟨rfl, twin⟩
    | ok _ => exact ⟨.of_eq fun _ => rfl, record_twin twin f args⟩

end Environment

namespace Machine

open Environment

variable (preferDecimal : Bool)

theorem step_oblivious (i : Instruction) (stack : Stack) :
    (step host preferDecimal i stack).Oblivious := by
  cases i with
  | pushConstant v => exact .lift _
  | pushVariable name =>
    exact (get_oblivious name).bind fun _ => (Run.Oblivious.lift _).bind fun _ => .lift _
  | store name =>
    exact (Run.Oblivious.lift _).bind fun _ => (set_oblivious name _).bind fun _ => .lift (.ok stack)
  | delete name => exact (delete_oblivious name).bind fun _ => .lift (.ok stack)
  | call name count =>
    exact (Run.Oblivious.lift _).bind fun _ => (invoke_oblivious name _).bind fun _ =>
      (Run.Oblivious.lift _).bind fun _ => .lift _
  | unary op => exact (Run.Oblivious.lift _).bind fun _ => (Run.Oblivious.lift _).bind fun _ => .lift _
  | binary op => exact .lift _
  | word op => exact .lift _
  | unknown text => exact .lift (.error _)

theorem exec_oblivious (code : List Instruction) (stack : Stack) :
    (exec host preferDecimal code stack).Oblivious := by
  induction code generalizing stack with
  | nil => exact .lift (.ok stack)
  | cons i code ih => exact (step_oblivious preferDecimal i stack).bind ih

end Machine

theorem Formula.evaluate_oblivious (f : Formula) : (f.evaluate Environment.host).Oblivious := by
  apply (Run.Oblivious.lift f.program).bind
  intro p
  exact (Machine.exec_oblivious f.preferDecimal p.code _).bind fun _ => .lift _

namespace Grammar

variable {preferDecimal : Bool} {text : String} {p q : Nat} {ts : List Token}

theorem Reads.symbol_in_text {t : Token} {s : Symbol} {c : Char}
    (reads : Reads preferDecimal text p ts q) (member : t ∈ ts) (symbol : t.lexeme = .symbol s)
    (alone : s ∉ [.power, .root, .shiftLeft, .shiftRight, .comma]) (spelled : Symbol.single? c = some s) :
    c ∈ text.toList := by
  induction reads with
  | done => cases member
  | @token p q u us scanned _ _ _ ih =>
    rcases List.mem_cons.mp member with rfl | behind
    · subst scanned
      rcases Token.scan_cases preferDecimal text p with ⟨ends, -, -⟩ | ⟨d, cs, here, -, lexeme, -⟩
      · cases symbol.symm.trans ends
      · have found := Lexeme.symbol_of_read (lexeme.symm.trans symbol)
        obtain ⟨single, -⟩ := Symbol.single_of_read? (alone ∘ List.mem_append_left [Symbol.comma]) found
        obtain rfl := Symbol.single?_inj single spelled
        apply List.mem_of_mem_drop
        rw [here]
        exact List.mem_cons_self
    · exact ih behind
  | comma _ _ _ ih =>
    rcases List.mem_cons.mp member with rfl | behind
    · cases symbol
      exact absurd (by decide) alone
    · exact ih behind

end Grammar

namespace Formula

variable {nesting : Nat} {preferDecimal : Bool} {text : String} {p : Program}

theorem untargeted_of_compile (compiled : (compile preferDecimal text nesting).outcome = .ok p)
    (equals : '=' ∉ text.toList) (hashes : '#' ∉ text.toList) : ∀ i ∈ p.code, i.target? = none := by
  obtain ⟨e, parsed, rfl⟩ := program_of_compile compiled
  obtain ⟨ts, ⟨q, reads, -⟩, phrase⟩ := Grammar.derived_of_ofText parsed
  intro i member
  have origins := phrase.fromTokens i (e.code_eq_postorder ▸ member)
  cases i with
  | store name =>
    obtain ⟨t, inside, symbol⟩ := origins _ rfl
    exact absurd (reads.symbol_in_text inside symbol (by decide) rfl) equals
  | delete name =>
    obtain ⟨t, inside, symbol⟩ := origins _ rfl
    exact absurd (reads.symbol_in_text inside symbol (by decide) rfl) hashes
  | _ => rfl

/-- Evaluation, whether it succeeds or fails, leaves the library and the listeners as they are, and every
    variable that no instruction stores or deletes. For each store and each deletion that is carried out
    every listener is told of its variable, once and in this order. Without an equals sign and a hash in
    the text there are none of these and the environment is left as it is, and the evaluation comes to the
    same again. -/
theorem evaluate_touches_named (compiled : (compile preferDecimal text nesting).outcome = .ok p)
    (env : Environment) :
    let evaluated := ((compile preferDecimal text nesting).evaluate Environment.host).outcome env
    ∃ done, Machine.CarriedOut Environment.host preferDecimal p.code (.empty p.depth) env done ∧
      env.Spared p.code done evaluated.2 ∧
      ('=' ∉ text.toList → '#' ∉ text.toList →
        env.Twin evaluated.2 ∧ done.filterMap Instruction.target? = [] ∧
        (((compile preferDecimal text nesting).evaluate Environment.host).outcome evaluated.2).1 =
          evaluated.1) := by
  intro evaluated
  have carried := Machine.executed_carriedOut Environment.host preferDecimal p.code (.empty p.depth) env
  have changed : Environment.Changed (Machine.changes preferDecimal p.code (.empty p.depth) env) env
      evaluated.2 := by
    have changed := (compile preferDecimal text nesting).evaluate_changed env
    rw [changes, compiled] at changed
    exact changed
  have spared := changed.spared carried.subset (Machine.targets_of_executed preferDecimal p.code _ env)
  refine ⟨_, carried, spared, ?_⟩
  intro equals hashes
  have untargeted := untargeted_of_compile compiled equals hashes
  have none : ((Machine.executed Environment.host preferDecimal p.code (.empty p.depth) env).map
      Prod.fst).filterMap Instruction.target? = [] :=
    List.filterMap_eq_nil_iff.mpr fun i member => untargeted i (carried.subset member)
  have twin : env.Twin evaluated.2 := by
    refine ⟨?_, spared.library, spared.listeners⟩
    rw [changed.bindings, Machine.changes_of_untargeted untargeted]
    rfl
  refine ⟨twin, none, ?_⟩
  have results := ((compile preferDecimal text nesting).evaluate_oblivious env evaluated.2 twin).1
  exact results.eq.symm

theorem evaluate_touches_named_of_division :
    let evaluated (text : String) :=
      ((compile false text).evaluate Environment.host).outcome Environment.standard
    ∃ p q, (compile false "(x=2)/y").outcome = .ok p ∧ (compile false "2/y").outcome = .ok q ∧
      '=' ∉ "2/y".toList ∧ '#' ∉ "2/y".toList ∧
      (∃ done, Machine.CarriedOut Environment.host false p.code (.empty p.depth) .standard done ∧
        Environment.standard.Spared p.code done (evaluated "(x=2)/y").2) ∧
      Environment.standard.Twin (evaluated "2/y").2 := by
  intro evaluated
  have assigning : Expr.ofText false "(x=2)/y" =
      .ok (.binary (.number .divide) (.assign "x" (.constant (.integer 2))) (.read "y")) := by cbv
  have reading : Expr.ofText false "2/y" =
      .ok (.binary (.number .divide) (.constant (.integer 2)) (.read "y")) := by cbv
  have compiled := compile_of_parsed assigning
  have compiled' := compile_of_parsed reading
  have equals : '=' ∉ "2/y".toList := by decide
  have hashes : '#' ∉ "2/y".toList := by decide
  obtain ⟨done, carried, spared, -⟩ := evaluate_touches_named compiled Environment.standard
  obtain ⟨_, _, _, unchanged⟩ := evaluate_touches_named compiled' Environment.standard
  exact ⟨_, _, compiled, compiled', equals, hashes, ⟨done, carried, spared⟩,
    (unchanged equals hashes).1⟩

end Formula

end Reckoner

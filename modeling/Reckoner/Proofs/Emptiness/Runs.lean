import Reckoner.Proofs.Emptiness.Environments

namespace Reckoner

open Environment

variable {preferDecimal : Bool}

/-- Stacks of one capacity that differ in empty values and zeros only. -/
def Stack.Alike (s t : Stack) : Prop :=
  s.capacity = t.capacity ∧ s.items.map Value.filled = t.items.map Value.filled

namespace Stack

variable {s t : Stack}

theorem Alike.size (alike : s.Alike t) : s.size = t.size := by
  have lengths := congrArg List.length alike.2
  rwa [List.length_map, List.length_map] at lengths

theorem Alike.push (alike : s.Alike t) {v w : Value} (same : v.Alike w) :
    Agree Stack.Alike (s.push v) (t.push w) := by
  unfold Stack.push
  rw [alike.1, alike.size]
  split
  · rfl
  · exact ⟨rfl, List.cons_eq_cons.mpr ⟨same, alike.2⟩⟩

theorem Alike.items_cases (alike : s.Alike t) :
    (s.items = [] ∧ t.items = []) ∨ ∃ v w below below', s.items = v :: below ∧ t.items = w :: below' ∧
      v.Alike w ∧ below.map Value.filled = below'.map Value.filled := by
  have same := alike.2
  rcases left : s.items with _ | ⟨v, below⟩ <;> rcases right : t.items with _ | ⟨w, below'⟩ <;>
    rw [left, right] at same
  · exact .inl ⟨rfl, rfl⟩
  · cases same
  · cases same
  · obtain ⟨top, rest⟩ := List.cons.inj same
    exact .inr ⟨v, w, below, below', rfl, rfl, top, rest⟩

theorem Alike.pop (alike : s.Alike t) :
    Agree (fun p q => p.1.Alike q.1 ∧ p.2.Alike q.2) s.pop t.pop := by
  unfold Stack.pop
  rcases alike.items_cases with ⟨left, right⟩ | ⟨v, w, below, below', left, right, top, rest⟩ <;>
    rw [left, right]
  · rfl
  · exact ⟨top, alike.1, rest⟩

theorem Alike.peek (alike : s.Alike t) : Agree Value.Alike s.peek t.peek := by
  unfold Stack.peek
  rcases alike.items_cases with ⟨left, right⟩ | ⟨v, w, below, below', left, right, top, rest⟩ <;>
    rw [left, right]
  · rfl
  · exact top

theorem Alike.popArguments (alike : s.Alike t) (count : Nat) {args args' : List Value}
    (same : args.map Value.filled = args'.map Value.filled) :
    Agree (fun p q => p.1.map Value.filled = q.1.map Value.filled ∧ p.2.Alike q.2)
      (s.popArguments count args) (t.popArguments count args') := by
  induction count generalizing s t args args' with
  | zero => exact ⟨same, alike⟩
  | succ count ih =>
    apply alike.pop.bind
    rintro ⟨v, below⟩ ⟨w, below'⟩ ⟨top, rest⟩
    exact ih rest (List.cons_eq_cons.mpr ⟨top, same⟩)

theorem Alike.result (alike : s.Alike t) : Agree Value.Alike s.result t.result := by
  unfold Stack.result
  rcases alike.items_cases with ⟨left, right⟩ | ⟨v, w, below, below', left, right, top, rest⟩ <;>
    rw [left, right]
  · rfl
  · rcases below with _ | ⟨a, below⟩ <;> rcases below' with _ | ⟨b, below'⟩
    · exact top
    · cases rest
    · cases rest
    -- the error tells the size, which is the same
    · have lengths := congrArg List.length rest
      simp only [List.length_map, List.length_cons] at lengths
      simp only [Agree, List.length_cons, lengths]

end Stack

theorem HostValue.Alike.toValue {v w : HostValue} (same : v.Alike w) :
    Agree Value.Alike (v.toValue preferDecimal) (w.toValue preferDecimal) := by
  have converted : (v.toValue preferDecimal).map Value.filled =
      (w.toValue preferDecimal).map Value.filled := by
    rw [← toValue_filled, same, toValue_filled]
  revert converted
  rcases v.toValue preferDecimal with e | a <;> rcases w.toValue preferDecimal with e' | b <;>
    intro converted
  · exact Except.error.inj converted
  · cases converted
  · cases converted
  · exact Except.ok.inj converted

theorem Value.Alike.ofValue {v w : Value} (same : v.Alike w) :
    HostValue.Alike (.ofValue v) (.ofValue w) := by
  unfold HostValue.Alike
  rw [← HostValue.ofValue_filled, same, HostValue.ofValue_filled]

theorem Value.allAlike_ofValue {vs ws : List Value}
    (same : vs.map Value.filled = ws.map Value.filled) :
    HostValue.AllAlike (vs.map .ofValue) (ws.map .ofValue) := by
  have host := congrArg (List.map HostValue.ofValue) same
  simpa only [HostValue.AllAlike, List.map_map, Function.comp_def, HostValue.ofValue_filled] using host

namespace Machine

/-- An operator that does not tell an empty operand from a zero. -/
theorem combine_agrees {f : Value → Value → Except Error Value}
    (fills : ∀ a b, f a.filled b.filled = f a b) {s t : Stack} (alike : s.Alike t) :
    Agree Stack.Alike (combine f s) (combine f t) := by
  apply alike.pop.bind
  rintro ⟨right, s⟩ ⟨right', t⟩ ⟨second, alike⟩
  apply alike.pop.bind
  rintro ⟨left, s⟩ ⟨left', t⟩ ⟨first, alike⟩
  have same : f left right = f left' right' := by rw [← fills left, first, second, fills]
  dsimp only
  rw [same]
  refine Agree.bind (.of_eq fun _ => rfl) ?_
  rintro a b (rfl : a = b)
  exact alike.push rfl

/-- An instruction keeps the stacks and the environments alike, or fails with the same error. -/
theorem step_agrees (i : Instruction) {s t : Stack} (alike : s.Alike t) :
    (step host preferDecimal i s).Agrees AlikeStandard Stack.Alike (step host preferDecimal i t) := by
  cases i with
  | pushConstant v => exact .lift (alike.push rfl)
  | pushVariable name =>
    exact (get_agrees name).bind fun _ _ got =>
      (Run.Agrees.lift got.toValue).bind fun _ _ same => .lift (alike.push same)
  | store name =>
    exact (Run.Agrees.lift alike.peek).bind fun _ _ top =>
      (set_agrees name top.ofValue).bind fun _ _ _ => .pure alike
  | delete name => exact (delete_agrees name).bind fun _ _ _ => .pure alike
  | call name count =>
    refine (Run.Agrees.lift (alike.popArguments count rfl)).bind ?_
    rintro ⟨args, s⟩ ⟨args', t⟩ ⟨same, alike⟩
    exact (invoke_agrees name (Value.allAlike_ofValue same)).bind fun _ _ result =>
      (Run.Agrees.lift result.toValue).bind fun _ _ same => .lift (alike.push same)
  | unary op =>
    refine (Run.Agrees.lift alike.pop).bind ?_
    rintro ⟨v, s⟩ ⟨w, t⟩ ⟨top, alike⟩
    have same : op.apply preferDecimal v = op.apply preferDecimal w := by
      rw [← Value.unaryApply_filled, top, Value.unaryApply_filled]
    dsimp only
    rw [same]
    refine (Run.Agrees.lift (.of_eq fun _ => rfl)).bind ?_
    rintro a b (rfl : a = b)
    exact .lift (alike.push rfl)
  | binary op => exact .lift (combine_agrees (fun a b => Value.binaryApply_filled _ a b op) alike)
  | word op => exact .lift (combine_agrees (fun a b => Value.wordApply_filled a b op) alike)
  | unknown text => exact .lift (x := .error _) (y := .error _) rfl

theorem exec_agrees (code : List Instruction) {s t : Stack} (alike : s.Alike t) :
    (exec host preferDecimal code s).Agrees AlikeStandard Stack.Alike
      (exec host preferDecimal code t) := by
  induction code generalizing s t with
  | nil => exact .pure alike
  | cons i code ih => exact (step_agrees i alike).bind fun _ _ alike => ih alike

theorem run_agrees (p : Program) :
    (run host preferDecimal p).Agrees AlikeStandard Value.Alike (run host preferDecimal p) :=
  (exec_agrees p.code ⟨rfl, rfl⟩).bind fun _ _ alike => .lift alike.result

end Machine

/-- A program runs alike where variables hold nothing and where they hold zero: it fails with the
    same error, or comes to the same value but for zero in the place of an empty one, and the
    variables and what listeners were told differ in this only. -/
theorem empty_runs_as_zero (preferDecimal : Bool) (p : Program) {env env' : Environment}
    (alike : env.Alike env') (standard : env.Standard) :
    Agree Value.Alike ((Machine.run host preferDecimal p).outcome env).1
      ((Machine.run host preferDecimal p).outcome env').1 ∧
    ((Machine.run host preferDecimal p).outcome env).2.Alike
      ((Machine.run host preferDecimal p).outcome env').2 := by
  obtain ⟨results, alike', -⟩ := Machine.run_agrees p env env' ⟨alike, standard⟩
  exact ⟨results, alike'⟩

theorem empty_runs_as_zero_stored :
    ∃ env env' : Environment, env.get "x" = .none ∧ env'.get "x" = .integer 0 ∧
      env.Alike env' ∧ env.Standard ∧
      let p : Program := ⟨[.pushVariable "x", .unary .factorial, .pushVariable "x", .store "y",
        .binary .subtract], 2⟩
      ((Machine.run host true p).outcome env).1 = .ok (.integer 1) ∧
      Agree Value.Alike ((Machine.run host true p).outcome env).1
        ((Machine.run host true p).outcome env').1 ∧
      ((Machine.run host true p).outcome env).2.Alike ((Machine.run host true p).outcome env').2 := by
  have alike : Alike (.ofLibrary Registry.standard.members [("x", .none)])
      (.ofLibrary Registry.standard.members [("x", .integer 0)]) := by
    refine ⟨?_, rfl, rfl, rfl⟩
    intro name
    simp only [ofLibrary, Entries.lookup_cons]
    split <;> rfl
  exact ⟨_, _, rfl, rfl, alike, rfl, rfl, empty_runs_as_zero true _ alike rfl⟩

end Reckoner

import Reckoner.Proofs.Values.Invariant

namespace Reckoner

variable {σ : Type} {preferDecimal : Bool}

namespace Value

def InContext (preferDecimal : Bool) (v : Value) : Prop :=
  ∀ d, v = .decimal d → preferDecimal = true ∧ d.Fits .engine

theorem Admissible.inContext {v : Value} (admissible : v.Admissible preferDecimal) :
    v.InContext preferDecimal := by
  rintro d rfl
  cases admissible with
  | decimal preferred fits => exact ⟨preferred, fits⟩

end Value

open Value

abbrev KeepsContext (preferDecimal : Bool) (x : Except Error Value) : Prop :=
  Ends (InContext preferDecimal) (fun _ => True) x

theorem Admits.keepsContext {x : Except Error Value} (admits : Admits preferDecimal x) :
    KeepsContext preferDecimal x :=
  Ends.mono admits fun _ => Admissible.inContext

theorem HostValue.toValue_keepsContext (v : HostValue) :
    KeepsContext preferDecimal (v.toValue preferDecimal) := by
  by_cases bounded : v.Bounded
  · exact Admits.keepsContext (toValue_admits preferDecimal bounded)
  · unfold Bounded at bounded
    split at bounded
    · exact nofun
    · exact absurd trivial bounded

theorem promote_prefers {left right : Value} (first : left.InContext preferDecimal)
    (second : right.InContext preferDecimal) :
    Ends (fun operands => ∀ a b, operands = .decimals a b → preferDecimal = true) (fun _ => True)
      (left.promote right) := by
  unfold Value.promote
  split
  · exact .after fun _ => .after fun _ => nofun
  · exact .after fun _ => .after fun _ => nofun
  · rename_i tag
    refine .after fun _ => .after fun _ _ _ _ => ?_
    unfold Tag.higher at tag
    split at tag
    · cases right <;> cases tag
      exact (second _ rfl).1
    · cases left <;> cases tag
      exact (first _ rfl).1
  · exact .after fun _ => .after fun _ => nofun

theorem BinaryOp.apply_keepsContext (op : BinaryOp) {left right : Value}
    (first : left.InContext preferDecimal) (second : right.InContext preferDecimal) :
    KeepsContext preferDecimal (op.apply preferDecimal left right) := by
  apply (promote_prefers first second).bind
  intro operands prefers
  cases operands with
  | words a b =>
    refine .after fun result => ?_
    cases result with
    | some n => exact nofun
    | none => exact Admits.keepsContext (op.applyWide_admits _ _)
  | decimals a b => exact Admits.keepsContext (op.applyDecimals_admits (prefers a b rfl) a b)
  | doubles a b => exact nofun

theorem UnaryOp.apply_keepsContext (op : UnaryOp) {v : Value} (operand : v.InContext preferDecimal) :
    KeepsContext preferDecimal (op.apply preferDecimal v) := by
  cases v with
  | empty => exact Admits.keepsContext (op.apply_admits .empty)
  | double x => exact Admits.keepsContext (op.apply_admits (.double x))
  | decimal d =>
    obtain ⟨preferred, fits⟩ := operand d rfl
    exact Admits.keepsContext (op.apply_admits (.decimal preferred fits))
  | integer n =>
    cases op with
    | complement => exact nofun
    | negate =>
      exact .ite (fun _ => nofun) fun _ =>
        .ite (fun preferred => .after fun d => Admits.keepsContext (negateDecimal_admits preferred d))
          fun _ => .after fun _ => nofun
    | factorial =>
      refine .ite (fun _ => trivial) fun _ => ?_
      split
      · exact nofun
      · apply Ends.ite
        · intro preferred
          have fits : Ends (Decimal.Fits .engine) (fun _ => True) (Value.integer n).toDecimal :=
            (Decimal.round_fits Decimal.engine_proper _).mapError fun _ _ => trivial
          exact fits.bind fun d fits =>
            Admits.keepsContext (decimalFactorial_admits preferred fits)
        · exact fun _ => .after fun x => Admits.keepsContext (doubleFactorial_admits x)

namespace Machine

variable {host : Host σ}

theorem Effect.inContext {i : Instruction} {items items' : List Value} {s s' : σ}
    (effect : Effect host preferDecimal i items s items' s')
    (constant : Constants preferDecimal [i]) (all : ∀ v ∈ items, v.InContext preferDecimal) :
    ∀ v ∈ items', v.InContext preferDecimal := by
  cases effect with
  | pushConstant =>
    exact List.forall_mem_cons.mpr ⟨(constant _ (List.mem_singleton_self _)).inContext, all⟩
  | @pushVariable _ h _ _ _ _ _ converted =>
    exact List.forall_mem_cons.mpr ⟨h.toValue_keepsContext.of_ok converted, all⟩
  | store | delete => exact all
  | @call _ h _ _ _ _ _ _ converted =>
    exact List.forall_mem_cons.mpr ⟨h.toValue_keepsContext.of_ok converted,
      fun v member => all v (List.mem_append_right _ member)⟩
  | @unary op _ _ _ _ applied =>
    obtain ⟨operand, rest⟩ := List.forall_mem_cons.mp all
    exact List.forall_mem_cons.mpr ⟨(op.apply_keepsContext operand).of_ok applied, rest⟩
  | @operation op left right result _ _ applied =>
    obtain ⟨second, rest⟩ := List.forall_mem_cons.mp all
    obtain ⟨first, rest⟩ := List.forall_mem_cons.mp rest
    have keeps : KeepsContext preferDecimal (op.apply preferDecimal left right) := by
      cases op with
      | number op => exact op.apply_keepsContext first second
      | word op => exact Admits.keepsContext (op.apply_admits left right)
    exact List.forall_mem_cons.mpr ⟨keeps.of_ok applied, rest⟩

theorem Steps.inContext {c d : Configuration σ} (steps : Steps host preferDecimal c d)
    (constants : Constants preferDecimal c.code)
    (all : ∀ v ∈ c.stack.items, v.InContext preferDecimal) :
    ∀ v ∈ d.stack.items, v.InContext preferDecimal := by
  refine (steps.keeps (P := fun code items _ => Constants preferDecimal code ∧
    ∀ v ∈ items, v.InContext preferDecimal) ?_ ⟨constants, all⟩).2
  intro i code items items' s s' effect ⟨constants, all⟩
  obtain ⟨first, rest⟩ := constants_cons.mp constants
  exact ⟨rest, effect.inContext first all⟩

end Machine

theorem Formula.evaluate_inContext {nesting : Nat} {text : String} {p : Program}
    (compiled : (compile preferDecimal text nesting).outcome = .ok p) {host : Host σ} {s s' : σ} {v : Value}
    (evaluated : ((compile preferDecimal text nesting).evaluate host).outcome s = (.ok v, s')) :
    v.InContext preferDecimal := by
  rw [evaluate_of_compile compiled] at evaluated
  obtain ⟨stack, single, steps⟩ := Machine.steps_of_run evaluated
  have all := steps.inContext (constants_of_compile compiled) (List.forall_mem_nil _)
  rw [single] at all
  exact all v (List.mem_singleton_self v)

end Reckoner

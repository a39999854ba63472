import Reckoner.Proofs.Grammar.Rules
import Reckoner.Proofs.Postorder

namespace Reckoner

def Instruction.origin? : Instruction → Option Lexeme
  | pushConstant v => some (.number v)
  | store _ => some (.symbol .equal)
  | delete _ => some (.symbol .hash)
  | _ => none

namespace Grammar

variable {text : String}

def FromTokens (ts : List Token) (code : List Instruction) : Prop :=
  ∀ i ∈ code, ∀ l, i.origin? = some l → ∃ t ∈ ts, t.lexeme = l

namespace FromTokens

variable {ts us : List Token} {code code' : List Instruction} {e left right : Expr}

theorem weaken (origins : FromTokens ts code) (more : ts ⊆ us) : FromTokens us code := by
  intro i member l origin
  obtain ⟨t, inside, lexeme⟩ := origins i member l origin
  exact ⟨t, more inside, lexeme⟩

theorem append (first : FromTokens ts code) (second : FromTokens ts code') :
    FromTokens ts (code ++ code') := by
  intro i member
  rcases List.mem_append.mp member with member | member
  · exact first i member
  · exact second i member

theorem instruction {i : Instruction} (found : ∀ l, i.origin? = some l → ∃ t ∈ ts, t.lexeme = l) :
    FromTokens ts [i] := by
  intro j member
  rw [List.mem_singleton.mp member]
  exact found

theorem last {i : Instruction} (origins : FromTokens ts code) (other : i.origin? = none) :
    FromTokens ts (code ++ [i]) := by
  apply origins.append
  apply instruction
  rw [other]
  nofun

theorem unary (op : UnaryOp) (origins : FromTokens ts e.postorder) :
    FromTokens ts (Expr.unary op e).postorder :=
  origins.last rfl

theorem call {es : List Expr} (name : String) (origins : FromTokens ts (Expr.postorderAll es)) :
    FromTokens ts (Expr.call name es).postorder :=
  origins.last rfl

theorem assign {equal : Token} (name : String) (origins : FromTokens ts e.postorder) (inside : equal ∈ ts)
    (equals : equal.lexeme = .symbol .equal) : FromTokens ts (Expr.assign name e).postorder := by
  apply origins.append
  apply instruction
  intro l origin
  cases origin
  exact ⟨equal, inside, equals⟩

theorem binary {vs : List Token} (op : Operation) (first : FromTokens ts left.postorder)
    (second : FromTokens us right.postorder) (before : ts ⊆ vs) (behind : us ⊆ vs) :
    FromTokens vs (Expr.binary op left right).postorder :=
  ((first.weaken before).append (second.weaken behind)).last (by cases op <;> rfl)

theorem signed (ps : List Symbol) (origins : FromTokens ts e.postorder) :
    FromTokens ts (signed ps e).postorder := by
  unfold Grammar.signed
  dsimp only
  split <;> split
  · exact (origins.unary .negate).unary .complement
  · exact origins.unary .complement
  · exact origins.unary .negate
  · exact origins

end FromTokens

theorem hash_of_odd {ps : List Symbol} {ts : List Token}
    (spelled : ts.map Token.lexeme = ps.map Lexeme.symbol) (odd : odd .hash ps = true) :
    ∃ t ∈ ts, t.lexeme = .symbol .hash := by
  have hash : .hash ∈ ps := by
    apply List.count_pos_iff.mp
    unfold Grammar.odd at odd
    rw [beq_iff_eq] at odd
    omega
  have spelledHash : .symbol .hash ∈ ts.map Token.lexeme := by
    rw [spelled]
    exact List.mem_map_of_mem hash
  exact List.mem_map.mp spelledHash

mutual

theorem Phrase.fromTokens {rank : Nat} {ts : List Token} {e : Expr} :
    Phrase text rank ts e → FromTokens ts e.postorder
  | .operand _ spelled body => by
    apply FromTokens.signed
    apply body.fromTokens (List.subset_append_right ..)
    intro odd
    obtain ⟨t, inside, hash⟩ := hash_of_odd spelled odd
    exact ⟨t, List.mem_append_left _ inside, hash⟩
  | .marked _ spelled body _ => by
    apply FromTokens.signed
    apply FromTokens.unary
    apply body.fromTokens (List.subset_append_of_subset_left _ (List.subset_append_right ..))
    intro odd
    obtain ⟨t, inside, hash⟩ := hash_of_odd spelled odd
    exact ⟨t, List.mem_append_left _ (List.mem_append_left _ inside), hash⟩
  | .single inner => inner.fromTokens
  | .binary first _ _ second =>
    first.fromTokens.binary _ second.fromTokens (List.subset_append_left ..)
      (List.subset_append_of_subset_right _ (List.subset_cons_self ..))
  | .product first _ second =>
    first.fromTokens.binary _ second.fromTokens (List.subset_append_left ..)
      (List.subset_append_right ..)
termination_by structural phrase => phrase

theorem Primary.fromTokens {delete : Bool} {ts us : List Token} {e : Expr} :
    Primary text delete ts e → ts ⊆ us → (delete = true → ∃ t ∈ us, t.lexeme = .symbol .hash) →
      FromTokens us e.postorder
  | .bracket _ inner _, inside, _ => by
    apply inner.fromTokens.weaken
    intro t member
    exact inside (List.mem_append_left _ (List.mem_cons_of_mem _ member))
  | .number number, inside, _ => by
    apply FromTokens.instruction
    intro l origin
    cases origin
    exact ⟨_, inside (List.mem_singleton_self _), number⟩
  | .read _, _, _ => FromTokens.instruction nofun
  | .remove _, _, hash => by
    apply (FromTokens.instruction nofun : FromTokens us [.pushVariable _]).append
    apply FromTokens.instruction
    intro l origin
    cases origin
    exact hash rfl
  | .assign _ equals value, inside, _ => by
    have behind := List.Subset.trans (List.subset_cons_of_subset _ (List.subset_cons_self ..)) inside
    exact (value.fromTokens.weaken behind).assign _
      (inside (List.mem_cons_of_mem _ List.mem_cons_self)) equals
  | .call _ _ args, inside, _ => by
    have behind := List.Subset.trans (List.subset_cons_of_subset _ (List.subset_cons_self ..)) inside
    exact (args.fromTokens.weaken behind).call _
termination_by structural primary => primary

theorem Arguments.fromTokens {ts : List Token} {es : List Expr} :
    Arguments text ts es → FromTokens ts (Expr.postorderAll es)
  | .close _ => nofun
  | .separated first _ _ rest =>
    (first.fromTokens.weaken (List.subset_append_left ..)).append
      (rest.fromTokens.weaken (List.subset_append_of_subset_right _ (List.subset_cons_self ..)))
  | .adjacent first _ rest =>
    (first.fromTokens.weaken (List.subset_append_left ..)).append
      (rest.fromTokens.weaken (List.subset_append_right ..))
termination_by structural args => args

end

end Grammar

end Reckoner

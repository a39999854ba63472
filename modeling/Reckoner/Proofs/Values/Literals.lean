import Reckoner.Proofs.Grammar.Reading
import Reckoner.Proofs.Values.Operators

namespace Reckoner

variable (preferDecimal : Bool)

def Lexeme.Admissible : Lexeme → Prop
  | number v => v.Admissible preferDecimal ∧ v.Quiet
  | _ => True

namespace Literal

theorem fractionLexeme_admissible {d : Decimal} (quiet : d.isSignaling = false) :
    (fractionLexeme preferDecimal d).Admissible preferDecimal := by
  have rounded := Decimal.round_fits Decimal.engine_proper d
  unfold fractionLexeme fractionValue?
  cases preferDecimal with
  | false => exact ⟨.double _, trivial⟩
  | true =>
    cases ran : Decimal.Context.engine.round d with
    | error signal => trivial
    | ok r =>
      exact ⟨.decimal rfl (rounded.of_ok ran), Decimal.heeds_of_quiet ((Decimal.round_silent quiet).of_ok ran)⟩

theorem mantissaLexeme_admissible (m : Mantissa) :
    (mantissaLexeme preferDecimal m).Admissible preferDecimal := by
  unfold mantissaLexeme
  dsimp only
  split
  · rename_i small
    refine ⟨.integer (fitsWord_iff.mpr ⟨?_, small.2⟩), trivial⟩
    unfold leastWord
    omega
  · exact fractionLexeme_admissible _ rfl

theorem decimal_admissible (cs : List Char) :
    (decimal preferDecimal cs).1.Admissible preferDecimal := by
  unfold decimal
  dsimp only
  split
  · exact mantissaLexeme_admissible ..
  · exact fractionLexeme_admissible _ rfl
  · trivial

theorem patternRun_admissible (bits value digits length : Nat) (cs : List Char) :
    (patternRun bits value digits length cs).1.Admissible preferDecimal := by
  have finished (value digits length : Nat) :
      (patternRun.finish value digits length).1.Admissible preferDecimal := by
    unfold patternRun.finish
    split
    · trivial
    · exact ⟨.integer (fitsWord_wrapWord _), trivial⟩
  fun_induction patternRun bits value digits length cs with
  | case1 => exact finished ..
  | case2 _ _ _ _ ih => exact ih
  | case3 => exact finished ..
  | case4 _ _ _ _ _ _ _ _ _ ih => exact ih
  | case5 => trivial

theorem read_admissible (cs : List Char) :
    (read preferDecimal cs).1.Admissible preferDecimal := by
  unfold read
  split
  · split
    · exact patternRun_admissible ..
    · exact decimal_admissible ..
  · exact decimal_admissible ..

end Literal

theorem Token.scan_admissible (text : String) (p : Nat) :
    (scan preferDecimal text p).lexeme.Admissible preferDecimal := by
  unfold scan read
  split
  · trivial
  · unfold Lexeme.read
    dsimp only
    split
    · exact Literal.read_admissible ..
    · split
      · trivial
      · split <;> trivial

namespace Grammar

variable {preferDecimal} {text : String}

theorem Reads.admissible {p q : Nat} {ts : List Token} (read : Reads preferDecimal text p ts q) :
    ∀ t ∈ ts, t.lexeme.Admissible preferDecimal := by
  induction read with
  | done => nofun
  | @token p _ _ _ scanned _ _ _ ih =>
    subst scanned
    exact List.forall_mem_cons.mpr ⟨Token.scan_admissible preferDecimal text p, ih⟩
  | comma _ _ _ ih => exact List.forall_mem_cons.mpr ⟨trivial, ih⟩

end Grammar

end Reckoner

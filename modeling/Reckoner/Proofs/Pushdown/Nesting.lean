import Reckoner.Proofs.Pushdown.Parser

namespace Reckoner

namespace Pushdown

variable {m n : Nat} {preferDecimal : Bool} {text : String} {s s' : State}

theorem step_limited (less : m ≤ n) (preferDecimal : Bool) (text : String) (s : State) :
    s.step m preferDecimal text = s.step n preferDecimal text ∨
      ∃ c, s.step m preferDecimal text = .fails (Expr.tooDeep c) := by
  rcases step_cases m preferDecimal text s with ⟨fault, lexeme⟩ | ⟨readable, deep | within⟩
  · exact .inl ((step_of_fault lexeme).trans (step_of_fault lexeme).symm)
  · exact .inr ⟨_, step_of_deep readable deep⟩
  · exact .inl ((step_of_readable readable within).trans
      (step_of_readable readable (Nat.le_trans within less)).symm)

theorem Runs.more_nesting (less : m ≤ n) (runs : Runs m preferDecimal text s s') :
    Runs n preferDecimal text s s' := by
  induction runs with
  | refl => exact .refl _
  | next stepped _ ih =>
    rcases step_limited less preferDecimal text _ with same | ⟨c, met⟩
    · exact .next (same.symm.trans stepped) ih
    · cases stepped.symm.trans met

end Pushdown

namespace Expr

variable {m n : Nat}

/-- Under a limit a text is read as under every higher one, unless it meets the limit. -/
theorem ofText_limited (less : m ≤ n) (preferDecimal : Bool) (text : String) :
    ofText preferDecimal text m = ofText preferDecimal text n ∨
      ∃ c, ofText preferDecimal text m = .error (tooDeep c) := by
  cases parsed : ofText preferDecimal text m with
  | ok e =>
    obtain ⟨s, runs, accepts⟩ := Pushdown.ofText_eq_ok_iff.mp parsed
    rcases Pushdown.step_limited less preferDecimal text s with same | ⟨c, met⟩
    · exact .inl (Pushdown.ofText_eq_ok_iff.mpr
        ⟨s, runs.more_nesting less, same.symm.trans accepts⟩).symm
    · cases accepts.symm.trans met
  | error fault =>
    obtain ⟨s, runs, fails⟩ := Pushdown.ofText_eq_error_iff.mp parsed
    rcases Pushdown.step_limited less preferDecimal text s with same | ⟨c, met⟩
    · exact .inl (Pushdown.ofText_eq_error_iff.mpr
        ⟨s, runs.more_nesting less, same.symm.trans fails⟩).symm
    · cases fails.symm.trans met
      exact .inr ⟨c, rfl⟩

theorem ofText_more_nesting {preferDecimal : Bool} {text : String} {e : Expr} (less : m ≤ n)
    (parsed : ofText preferDecimal text m = .ok e) : ofText preferDecimal text n = .ok e := by
  rcases ofText_limited less preferDecimal text with same | ⟨c, met⟩
  · exact same.symm.trans parsed
  · cases parsed.symm.trans met

end Expr

end Reckoner

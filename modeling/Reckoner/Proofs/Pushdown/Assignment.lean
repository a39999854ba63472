import Reckoner.Proofs.Grammar.Names
import Reckoner.Proofs.Pushdown.Layout

namespace Reckoner

def assignmentText (name before behind text : String) : String :=
  name ++ before ++ "=" ++ behind ++ text

theorem Lexeme.read_equal (preferDecimal : Bool) (cs : List Char) :
    read preferDecimal '=' cs = (.symbol .equal, 1) := by
  have single : Symbol.read? '=' cs = some (.equal, 1) := by
    cases cs <;> rfl
  have unnumbered : ¬ Literal.startsNumber '=' cs = true := Bool.eq_false_iff.mp rfl
  rw [read, if_neg unnumbered, if_neg (by decide), single]

namespace Pushdown

open Grammar Layout

variable {nesting : Nat} {preferDecimal : Bool} {name before behind text : String} {e : Expr} {q : Nat}

theorem opens_assignment (identifier : isIdentifier name = true)
    (blank : ∀ c ∈ before.toList, isSpace c = true) :
    ∃ q, (assignmentText name before behind text).toList.drop q = behind.toList ++ text.toList ∧
      Runs nesting preferDecimal (assignmentText name before behind text) ⟨.start, 0⟩
        ⟨⟨.operand default, [.assignment default name]⟩, q⟩ := by
  have spelled : (assignmentText name before behind text).toList =
      name.toList ++ (before.toList ++ '=' :: (behind.toList ++ text.toList)) := by
    simp [assignmentText]
  generalize assignmentText name before behind text = whole at spelled
  have ends : ∀ c ∈ (before.toList ++ '=' :: (behind.toList ++ text.toList)).head?,
      isNamePart c = false := by
    intro c first
    cases spaces : before.toList with
    | nil =>
      rw [spaces] at first
      rw [← Option.some.inj first]
      decide
    | cons d ds =>
      rw [spaces] at first
      rw [← Option.some.inj first]
      have space : isSpace d = true := blank d (spaces ▸ List.mem_cons_self)
      exact isNamePart_of_isDelimiter (Bool.or_eq_true_iff.mpr (.inl (isBlank_of_isSpace space)))
  have named : Token.scan preferDecimal whole 0 = _ := scan_name identifier spelled ends
  have next : whole.toList.drop (Token.scan preferDecimal whole 0).stop =
      before.toList ++ '=' :: (behind.toList ++ text.toList) := by
    rw [named, Token.stop, Nat.zero_add, ← String.length_toList, spelled, List.drop_left]
  obtain ⟨equal, rest⟩ := symbol_shown (begins_behind_blanks preferDecimal blank (by decide) next)
    (Lexeme.read_equal preferDecimal _)
  have reads_name : (⟨.start, 0⟩ : State).step nesting preferDecimal whole =
      .goes ⟨⟨.name default name, []⟩, (Token.scan preferDecimal whole 0).stop⟩ := by
    have lexeme : (Token.scan preferDecimal whole 0).lexeme = .identifier name := by rw [named]
    rw [step_of_readable (by rw [Readable, lexeme]; rfl) (Nat.zero_le _), lexeme]
    rfl
  have reads_equal : (⟨⟨.name default name, []⟩, (Token.scan preferDecimal whole 0).stop⟩ :
      State).step nesting preferDecimal whole = .goes ⟨⟨.operand default, [.assignment default name]⟩,
        (Token.scan preferDecimal whole (Token.scan preferDecimal whole 0).stop).stop⟩ := by
    rw [step_of_readable (by rw [Readable, equal]; rfl) (Nat.zero_le _), equal]
    rfl
  exact ⟨_, rest, .next reads_name (.single reads_equal)⟩

theorem assignment_accepts (name : String) (within : 1 ≤ nesting)
    (ends : (Token.scan preferDecimal text q).lexeme = .eof) :
    ∃ s, Runs nesting preferDecimal text ⟨⟨.rest loosestRank e, [.assignment default name]⟩, q⟩ s ∧
      s.step nesting preferDecimal text = .accepts (.assign name e) := by
  obtain ⟨s, runs, accepts⟩ := primary_accepts default ends
  refine ⟨s, .next ?_ runs, accepts⟩
  rw [step_of_readable (by rw [Readable, ends]; rfl) within, Control.move_assignment_end]
  rfl

/-- Inside an assignment, where one construct more may nest, a text is read as it is read alone. -/
theorem assigned_accepts (name : String) (parsed : Expr.ofText preferDecimal text nesting = .ok e) :
    ∃ s, Runs (nesting + 1) preferDecimal text ⟨⟨.operand default, [.assignment default name]⟩, 0⟩ s ∧
      s.step (nesting + 1) preferDecimal text = .accepts (.assign name e) := by
  obtain ⟨⟨start, bound⟩, begin, parsed⟩ := bind_eq_ok.mp parsed
  obtain ⟨rfl, readable⟩ := read_eq_cursorAt (List.drop_zero (l := text.toList)).symm begin
  obtain ⟨⟨⟨e', c⟩, shorter⟩, ranked, parsed⟩ := bind_eq_ok.mp parsed
  have level : nesting + depth [.assignment default name] = nesting + 1 := rfl
  have follows := ofRank_follows nesting loosestRank 0 [.assignment default name] level
    (Nat.le_refl _) readable
  rw [ranked] at follows
  obtain ⟨s, runs, q, -, there, rfl⟩ := follows
  dsimp only at there parsed
  subst there
  split at parsed
  · rename_i ends
    cases parsed
    obtain ⟨s', runs', accepts⟩ := assignment_accepts name (Nat.le_add_left 1 nesting) ends
    exact ⟨s', runs.trans runs', accepts⟩
  · cases parsed

theorem ofText_assignment (identifier : isIdentifier name = true)
    (blank : ∀ c ∈ before.toList, isSpace c = true) (blank' : ∀ c ∈ behind.toList, isSpace c = true)
    (parsed : Expr.ofText preferDecimal text nesting = .ok e) :
    Expr.ofText preferDecimal (assignmentText name before behind text) (nesting + 1) =
      .ok (.assign name e) := by
  obtain ⟨s, runs, accepts⟩ := assigned_accepts name parsed
  obtain ⟨ts, consumes⟩ := runs.consumes
  obtain ⟨q, here, opens⟩ := opens_assignment identifier blank
  have relaid : Relaid 0 ts (text.toList.drop 0)
      ((assignmentText name before behind text).toList.drop q) := by
    rw [here]
    exact (relaid_of_reads consumes.reads (of_accepts accepts).1).prepend blank'
  have alike := alike_of_relaid consumes.reads (of_accepts accepts).1 relaid
  obtain ⟨s', runs', accepts'⟩ := consumes.alike accepts alike
  exact ofText_eq_ok_iff.mpr ⟨s', opens.trans runs', accepts'⟩

end Pushdown

end Reckoner

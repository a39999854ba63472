import Reckoner.Proofs.Grammar.Literals

namespace Reckoner

/-- A name as formulas write it: it begins with a letter or an underscore, and letters, digits and
    underscores follow. -/
def isIdentifier (s : String) : Bool :=
  match s.toList with
  | [] => false
  | c :: cs => isNameStart c && cs.all isNamePart

namespace Grammar

open Pushdown

variable {nesting : Nat} {preferDecimal : Bool} {name : String}

theorem first_of_high {c : Char} (high : 58 ≤ c.toNat) (cs : List Char) :
    isSpace c = false ∧ Literal.startsNumber c cs = false := by
  have apart (d : Char) (low : d.toNat < 58) : (c == d) = false := by
    refine beq_eq_false_iff_ne.mpr ?_
    rintro rfl
    omega
  have digit : c.isDigit = false := by
    refine Bool.eq_false_iff.mpr fun digit => ?_
    simp only [Char.isDigit, Bool.and_eq_true, decide_eq_true_eq, UInt32.le_iff_toNat_le] at digit
    have bound : c.toNat ≤ 57 := digit.2
    omega
  constructor
  · simp [isSpace, apart ' ' (by decide), apart '\t' (by decide), apart '\r' (by decide),
      apart '\n' (by decide)]
  · simp [Literal.startsNumber, Literal.isSeparator, digit, apart ',' (by decide), apart '.' (by decide)]

theorem isNameStart_first {c : Char} (start : isNameStart c = true) (cs : List Char) :
    isSpace c = false ∧ Literal.startsNumber c cs = false := by
  have table : ∀ n < 58, isNameStart (Char.ofNat n) = false := by decide
  refine first_of_high (Nat.le_of_not_lt fun low => ?_) cs
  have other := table c.toNat low
  rw [Char.ofNat_toNat, start] at other
  cases other

theorem scan_name {text : String} {p : Nat} {rest : List Char} (identifier : isIdentifier name = true)
    (here : text.toList.drop p = name.toList ++ rest) (ends : ∀ c ∈ rest.head?, isNamePart c = false) :
    Token.scan preferDecimal text p = ⟨.identifier name, p, name.length⟩ := by
  unfold isIdentifier at identifier
  rcases spelled : name.toList with _ | ⟨c, cs⟩ <;> rw [spelled] at identifier here
  · cases identifier
  rw [List.cons_append] at here
  obtain ⟨start, parts⟩ := Bool.and_eq_true_iff.mp identifier
  obtain ⟨visible, number⟩ := isNameStart_first start (cs ++ rest)
  have run : (cs ++ rest).takeWhile isNamePart = cs := by
    rw [List.takeWhile_append_of_pos (List.all_eq_true.mp parts)]
    cases rest with
    | nil => exact List.append_nil cs
    | cons d ds => rw [List.takeWhile_cons_of_neg (Bool.eq_false_iff.mp (ends d rfl)), List.append_nil]
  have whole : name = String.ofList (c :: cs) := by rw [← spelled, String.ofList_toList]
  rw [Token.scan_of_visible preferDecimal text p here visible, Lexeme.read, number,
    if_neg Bool.false_ne_true, if_pos start, run, whole]
  simp [Nat.add_comm]

theorem scan_identifier (identifier : isIdentifier name = true) :
    Token.scan preferDecimal name 0 = ⟨.identifier name, 0, name.length⟩ :=
  scan_name identifier (List.append_nil name.toList).symm nofun

theorem scan_behind_identifier (identifier : isIdentifier name = true) :
    (Token.scan preferDecimal name (Token.scan preferDecimal name 0).stop).lexeme = .eof := by
  have behind : name.toList.drop name.length = [] := by
    rw [← String.length_toList, List.drop_length]
  rw [scan_identifier identifier, Token.stop, Nat.zero_add, Token.scan, behind]
  rfl

theorem ofText_identifier (identifier : isIdentifier name = true) :
    Expr.ofText preferDecimal name nesting = .ok (.read name) := by
  have scanned : Token.scan preferDecimal name 0 = _ := scan_identifier identifier
  have ends : (Token.scan preferDecimal name _).lexeme = .eof := scan_behind_identifier identifier
  have lexeme : (Token.scan preferDecimal name 0).lexeme = .identifier name := by rw [scanned]
  have named : (⟨.start, 0⟩ : State).step nesting preferDecimal name =
      .goes ⟨⟨.name default name, []⟩, (Token.scan preferDecimal name 0).stop⟩ := by
    rw [step_of_readable (by rw [Readable, lexeme]; rfl) (Nat.zero_le _), lexeme]
    rfl
  have behind : (⟨⟨.name default name, []⟩, (Token.scan preferDecimal name 0).stop⟩ : State).step
      nesting preferDecimal name =
        .goes ⟨⟨.primary default (.read name), []⟩, (Token.scan preferDecimal name 0).stop⟩ := by
    rw [step_of_readable (by rw [Readable, ends]; rfl) (Nat.zero_le _), ends]
    rfl
  obtain ⟨s, runs, accepts⟩ := primary_accepts default ends
  exact ofText_eq_ok_iff.mpr ⟨s, .next named (.next behind runs), accepts⟩

end Grammar

end Reckoner

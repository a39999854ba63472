import Reckoner.Proofs.Grammar.Rules

namespace Reckoner.Grammar

/-- What an expression under way is the inside of. -/
inductive Frame
  | bracket
  | assignment
  | argument

/-- What comes next: an operand, behind signs that delete it or not; the rest of what begins with
    a name; an argument or the end of the arguments; or what follows an operand, with or without a
    factorial mark. -/
inductive Stage
  | operand (delete : Bool)
  | name
  | arguments
  | rest (mark : Bool)

section

variable (preferDecimal : Bool) (text : String)

/-- From the end of an argument to where the next one would begin. -/
inductive Gap : Nat → Nat → Prop
  | separator {p : Nat} {s : Symbol}
      (symbol : (Token.scan preferDecimal text p).lexeme = .symbol s) (separator : s ∈ separators) :
      Gap p (Token.scan preferDecimal text p).stop
  | comma {p : Nat} (fraction : CommaFraction text (Token.scan preferDecimal text p)) :
      Gap p ((Token.scan preferDecimal text p).position + 1)
  | none {p : Nat} (apart : ¬ CommaFraction text (Token.scan preferDecimal text p)) : Gap p p

/-- The text from a position on completes the frames, the innermost first. -/
inductive Completes : Stage → List Frame → Nat → Prop
  | sign {delete : Bool} {frames : List Frame} {p : Nat} {s : Symbol}
      (symbol : (Token.scan preferDecimal text p).lexeme = .symbol s) (sign : s ∈ signs)
      (rest : Completes (.operand (delete ^^ s == .hash)) frames
        (Token.scan preferDecimal text p).stop) : Completes (.operand delete) frames p
  | number {frames : List Frame} {p : Nat} {v : Value}
      (number : (Token.scan preferDecimal text p).lexeme = .number v)
      (rest : Completes (.rest true) frames (Token.scan preferDecimal text p).stop) :
      Completes (.operand false) frames p
  | bracket {frames : List Frame} {p : Nat}
      (opens : (Token.scan preferDecimal text p).lexeme = .symbol .bracketOpen)
      (rest : Completes (.operand false) (.bracket :: frames)
        (Token.scan preferDecimal text p).stop) : Completes (.operand false) frames p
  | remove {frames : List Frame} {p : Nat} {name : String}
      (identifier : (Token.scan preferDecimal text p).lexeme = .identifier name)
      (rest : Completes (.rest true) frames (Token.scan preferDecimal text p).stop) :
      Completes (.operand true) frames p
  | name {frames : List Frame} {p : Nat} {name : String}
      (identifier : (Token.scan preferDecimal text p).lexeme = .identifier name)
      (rest : Completes .name frames (Token.scan preferDecimal text p).stop) :
      Completes (.operand false) frames p
  | read {frames : List Frame} {p : Nat} (rest : Completes (.rest true) frames p) :
      Completes .name frames p
  | assign {frames : List Frame} {p : Nat}
      (equals : (Token.scan preferDecimal text p).lexeme = .symbol .equal)
      (rest : Completes (.operand false) (.assignment :: frames)
        (Token.scan preferDecimal text p).stop) : Completes .name frames p
  | call {frames : List Frame} {p : Nat}
      (opens : (Token.scan preferDecimal text p).lexeme = .symbol .bracketOpen)
      (rest : Completes .arguments frames (Token.scan preferDecimal text p).stop) :
      Completes .name frames p
  | argument {frames : List Frame} {p : Nat}
      (rest : Completes (.operand false) (.argument :: frames) p) : Completes .arguments frames p
  | close {frames : List Frame} {p : Nat}
      (closes : (Token.scan preferDecimal text p).lexeme = .symbol .bracketClose)
      (rest : Completes (.rest true) frames (Token.scan preferDecimal text p).stop) :
      Completes .arguments frames p
  | mark {frames : List Frame} {p : Nat}
      (factorial : (Token.scan preferDecimal text p).lexeme = .symbol .factorial)
      (rest : Completes (.rest false) frames (Token.scan preferDecimal text p).stop) :
      Completes (.rest true) frames p
  | operator {mark : Bool} {frames : List Frame} {p rank : Nat} {s : Symbol} {op : Operation}
      (symbol : (Token.scan preferDecimal text p).lexeme = .symbol s)
      (operator : (s, op) ∈ operators rank)
      (rest : Completes (.operand false) frames (Token.scan preferDecimal text p).stop) :
      Completes (.rest mark) frames p
  | factor {mark : Bool} {frames : List Frame} {p : Nat} {name : String}
      (identifier : (Token.scan preferDecimal text p).lexeme = .identifier name)
      (rest : Completes (.operand false) frames p) : Completes (.rest mark) frames p
  | finish {mark : Bool} {p : Nat} (ends : (Token.scan preferDecimal text p).lexeme = .eof) :
      Completes (.rest mark) [] p
  | assigned {mark : Bool} {frames : List Frame} {p : Nat}
      (rest : Completes (.rest true) frames p) : Completes (.rest mark) (.assignment :: frames) p
  | closed {mark : Bool} {frames : List Frame} {p : Nat}
      (closes : (Token.scan preferDecimal text p).lexeme = .symbol .bracketClose)
      (rest : Completes (.rest true) frames (Token.scan preferDecimal text p).stop) :
      Completes (.rest mark) (.bracket :: frames) p
  | next {mark : Bool} {frames : List Frame} {p q : Nat} (gap : Gap preferDecimal text p q)
      (rest : Completes .arguments frames q) : Completes (.rest mark) (.argument :: frames) p

def Ends : List Frame → Nat → Prop
  | [], p => (Token.scan preferDecimal text p).lexeme = .eof
  | .assignment :: frames, p => Completes preferDecimal text (.rest true) frames p
  | .bracket :: frames, p => (Token.scan preferDecimal text p).lexeme = .symbol .bracketClose ∧
      Completes preferDecimal text (.rest true) frames (Token.scan preferDecimal text p).stop
  | .argument :: frames, p =>
      ∃ q, Gap preferDecimal text p q ∧ Completes preferDecimal text .arguments frames q

end

namespace Completes

variable {preferDecimal : Bool} {text : String} {stage : Stage} {frames : List Frame} {p : Nat}

theorem readable (completes : Completes preferDecimal text stage frames p) :
    Readable preferDecimal text p := by
  unfold Readable
  induction completes with
  | read _ ih | argument _ ih | factor _ _ ih | assigned _ ih => exact ih
  | next gap _ ih =>
    cases gap with
    | separator symbol _ => rw [symbol]; rfl
    | comma fraction =>
      obtain ⟨⟨v, number⟩, _⟩ := fraction
      rw [number]; rfl
    | none => exact ih
  | sign lexeme | number lexeme | bracket lexeme | remove lexeme | name lexeme | assign lexeme
  | call lexeme | close lexeme | mark lexeme | operator lexeme | finish lexeme | closed lexeme =>
    rw [lexeme]; rfl

theorem remark {mark mark' : Bool} (completes : Completes preferDecimal text (.rest mark) frames p)
    (allowed : mark' = true ∨ (Token.scan preferDecimal text p).lexeme ≠ .symbol .factorial) :
    Completes preferDecimal text (.rest mark') frames p := by
  cases completes with
  | mark factorial rest =>
    rcases allowed with rfl | other
    · exact .mark factorial rest
    · exact absurd factorial other
  | operator symbol operator rest => exact .operator symbol operator rest
  | factor identifier rest => exact .factor identifier rest
  | finish ends => exact .finish ends
  | assigned rest => exact .assigned rest
  | closed closes rest => exact .closed closes rest
  | next gap rest => exact .next gap rest

theorem loosen (inner : List Frame) {outer outer' : List Frame}
    (ends : ∀ mark p, Ends preferDecimal text outer p →
      Completes preferDecimal text (.rest mark) outer' p)
    (completes : Completes preferDecimal text stage (inner ++ outer) p) :
    Completes preferDecimal text stage (inner ++ outer') p := by
  generalize whole : inner ++ outer = frames at completes
  induction completes generalizing inner with
  | sign symbol sign _ ih => exact .sign symbol sign (ih inner whole)
  | number number _ ih => exact .number number (ih inner whole)
  | bracket opens _ ih => exact .bracket opens (ih (.bracket :: inner) (congrArg _ whole))
  | remove identifier _ ih => exact .remove identifier (ih inner whole)
  | name identifier _ ih => exact .name identifier (ih inner whole)
  | read _ ih => exact .read (ih inner whole)
  | assign equals _ ih =>
    exact .assign equals (ih (.assignment :: inner) (congrArg _ whole))
  | call opens _ ih => exact .call opens (ih inner whole)
  | argument _ ih => exact .argument (ih (.argument :: inner) (congrArg _ whole))
  | close closes _ ih => exact .close closes (ih inner whole)
  | mark factorial _ ih => exact .mark factorial (ih inner whole)
  | operator symbol operator _ ih => exact .operator symbol operator (ih inner whole)
  | factor identifier _ ih => exact .factor identifier (ih inner whole)
  | finish eof =>
    obtain ⟨rfl, rfl⟩ := List.append_eq_nil_iff.mp whole
    exact ends _ _ eof
  | assigned rest ih =>
    cases inner with
    | nil => subst whole; exact ends _ _ rest
    | cons frame inner => cases whole; exact .assigned (ih inner rfl)
  | closed closes rest ih =>
    cases inner with
    | nil => subst whole; exact ends _ _ ⟨closes, rest⟩
    | cons frame inner => cases whole; exact .closed closes (ih inner rfl)
  | next gap rest ih =>
    cases inner with
    | nil => subst whole; exact ends _ _ ⟨_, gap, rest⟩
    | cons frame inner => cases whole; exact .next gap (ih inner rfl)

theorem of_ends {mark : Bool} (ends : Ends preferDecimal text frames p) :
    Completes preferDecimal text (.rest mark) frames p := by
  match frames with
  | [] => exact .finish ends
  | .assignment :: frames => exact .assigned ends
  | .bracket :: frames => exact .closed ends.1 ends.2
  | .argument :: frames =>
    obtain ⟨q, gap, rest⟩ := ends
    exact .next gap rest

theorem insert_assignment (inner : List Frame) {outer : List Frame}
    (completes : Completes preferDecimal text stage (inner ++ outer) p) :
    Completes preferDecimal text stage (inner ++ .assignment :: outer) p :=
  completes.loosen inner fun _ _ ends => .assigned (of_ends ends)

theorem bracket_argument {outer : List Frame}
    (completes : Completes preferDecimal text stage (.bracket :: outer) p) :
    Completes preferDecimal text stage (.argument :: outer) p := by
  apply completes.loosen []
  intro mark q ends
  obtain ⟨closes, rest⟩ := ends
  exact .next (.none (by simp [CommaFraction, closes])) (.close closes rest)

theorem operator_other {rank : Nat} {s : Symbol} {op : Operation}
    (operator : (s, op) ∈ operators rank) :
    s ∉ [.factorial, .bracketOpen, .equal, .hash] ∧ s ∉ .bracketClose :: separators := by
  match rank with
  | 0 | 1 | 2 | 3 | 4 | 5 => cases s <;> simp_all [operators, separators]
  | n + 6 => simp [operators] at operator

theorem operand_symbol {s : Symbol} (symbol : (Token.scan preferDecimal text p).lexeme = .symbol s)
    (completes : Completes preferDecimal text (.operand false) frames p) :
    s ∈ signs ∧ Completes preferDecimal text (.operand (s == .hash)) frames
        (Token.scan preferDecimal text p).stop ∨
      s = .bracketOpen ∧ Completes preferDecimal text (.operand false) (.bracket :: frames)
        (Token.scan preferDecimal text p).stop := by
  cases completes with
  | sign symbol' sign rest =>
    cases symbol.symm.trans symbol'
    rw [Bool.false_xor] at rest
    exact .inl ⟨sign, rest⟩
  | number number => simp [symbol] at number
  | bracket opens rest =>
    cases symbol.symm.trans opens
    exact .inr ⟨rfl, rest⟩
  | name identifier => simp [symbol] at identifier

theorem operand_more (completes : Completes preferDecimal text (.operand false) frames p) :
    (Token.scan preferDecimal text p).lexeme ≠ .eof := by
  cases completes with
  | sign lexeme | number lexeme | bracket lexeme | name lexeme => simp [lexeme]

theorem gap_none {q : Nat} (gap : Gap preferDecimal text p q)
    (noNumber : ∀ v, (Token.scan preferDecimal text p).lexeme ≠ .number v)
    (noSeparator : ∀ s ∈ separators, (Token.scan preferDecimal text p).lexeme ≠ .symbol s) :
    q = p := by
  cases gap with
  | separator symbol separator => exact absurd symbol (noSeparator _ separator)
  | comma fraction =>
    obtain ⟨⟨v, number⟩, _⟩ := fraction
    exact absurd number (noNumber v)
  | none => rfl

theorem rest_cases {frames : List Frame} {mark : Bool}
    (noEnd : (Token.scan preferDecimal text p).lexeme ≠ .eof)
    (noNumber : ∀ v, (Token.scan preferDecimal text p).lexeme ≠ .number v)
    (noClose : (Token.scan preferDecimal text p).lexeme ≠ .symbol .bracketClose)
    (noSeparator : ∀ s ∈ separators, (Token.scan preferDecimal text p).lexeme ≠ .symbol s)
    (completes : Completes preferDecimal text (.rest mark) frames p) :
    (Token.scan preferDecimal text p).lexeme = .symbol .factorial ∧ Completes preferDecimal text
        (.rest false) frames (Token.scan preferDecimal text p).stop ∨
      (∃ rank s op, (Token.scan preferDecimal text p).lexeme = .symbol s ∧
        (s, op) ∈ operators rank ∧
        Completes preferDecimal text (.operand false) frames
          (Token.scan preferDecimal text p).stop) ∨
      Completes preferDecimal text (.operand false) frames p := by
  cases completes with
  | mark factorial rest => exact .inl ⟨factorial, rest⟩
  | operator symbol operator rest => exact .inr (.inl ⟨_, _, _, symbol, operator, rest⟩)
  | factor _ rest => exact .inr (.inr rest)
  | finish eof => exact absurd eof noEnd
  | closed closes _ => exact absurd closes noClose
  | assigned rest =>
    rcases rest_cases noEnd noNumber noClose noSeparator rest with
      ⟨factorial, rest⟩ | ⟨rank, s, op, symbol, operator, rest⟩ | rest
    · exact .inl ⟨factorial, rest.insert_assignment []⟩
    · exact .inr (.inl ⟨rank, s, op, symbol, operator, rest.insert_assignment []⟩)
    · exact .inr (.inr (rest.insert_assignment []))
  | next gap rest =>
    cases gap_none gap noNumber noSeparator
    cases rest with
    | argument rest => exact .inr (.inr rest)
    | close closes _ => exact absurd closes noClose
termination_by frames.length

theorem rest_symbol {mark : Bool} {s : Symbol}
    (symbol : (Token.scan preferDecimal text p).lexeme = .symbol s)
    (inside : s ∉ .bracketClose :: separators)
    (completes : Completes preferDecimal text (.rest mark) frames p) :
    s = .factorial ∧ Completes preferDecimal text
        (.rest false) frames (Token.scan preferDecimal text p).stop ∨
      (∃ rank op, (s, op) ∈ operators rank) ∧ Completes preferDecimal text (.operand false) frames
        (Token.scan preferDecimal text p).stop ∨
      s ∈ signs ∧ Completes preferDecimal text (.operand (s == .hash)) frames
        (Token.scan preferDecimal text p).stop ∨
      s = .bracketOpen ∧ Completes preferDecimal text (.operand false) (.bracket :: frames)
        (Token.scan preferDecimal text p).stop := by
  rw [List.mem_cons, not_or] at inside
  have noClose : (Token.scan preferDecimal text p).lexeme ≠ .symbol .bracketClose := by
    rw [symbol]
    exact fun same => inside.1 (Lexeme.symbol.inj same)
  have noSeparator : ∀ s ∈ separators, (Token.scan preferDecimal text p).lexeme ≠ .symbol s := by
    intro s' separator
    rw [symbol]
    exact fun same => inside.2 (Lexeme.symbol.inj same ▸ separator)
  rcases completes.rest_cases (by simp [symbol]) (by simp [symbol]) noClose noSeparator with
    ⟨factorial, rest⟩ | ⟨rank, s', op, symbol', operator, rest⟩ | rest
  · cases symbol.symm.trans factorial
    exact .inl ⟨rfl, rest⟩
  · cases symbol.symm.trans symbol'
    exact .inr (.inl ⟨⟨rank, op, operator⟩, rest⟩)
  · exact .inr (.inr (operand_symbol symbol rest))

theorem take_operator {mark : Bool} {rank : Nat} {s : Symbol} {op : Operation}
    (symbol : (Token.scan preferDecimal text p).lexeme = .symbol s)
    (operator : (s, op) ∈ operators rank)
    (completes : Completes preferDecimal text (.rest mark) frames p) :
    Completes preferDecimal text (.operand false) frames (Token.scan preferDecimal text p).stop := by
  obtain ⟨other, inside⟩ := operator_other operator
  simp only [List.mem_cons, not_or] at other
  rcases rest_symbol symbol inside completes with
    ⟨factorial, _⟩ | ⟨_, rest⟩ | ⟨_, rest⟩ | ⟨opens, _⟩
  · exact absurd factorial other.1
  · exact rest
  · rwa [beq_false_of_ne other.2.2.2.1] at rest
  · exact absurd opens other.2.1

theorem take_factor {mark : Bool} {name : String}
    (identifier : (Token.scan preferDecimal text p).lexeme = .identifier name)
    (completes : Completes preferDecimal text (.rest mark) frames p) :
    Completes preferDecimal text (.operand false) frames p := by
  rcases completes.rest_cases (by simp [identifier]) (by simp [identifier]) (by simp [identifier])
    (by simp [identifier]) with ⟨factorial, _⟩ | ⟨_, _, _, symbol, _⟩ | rest
  · simp [identifier] at factorial
  · simp [identifier] at symbol
  · exact rest

theorem take_mark {mark : Bool}
    (factorial : (Token.scan preferDecimal text p).lexeme = .symbol .factorial)
    (completes : Completes preferDecimal text (.rest mark) frames p) :
    Completes preferDecimal text (.rest false) frames (Token.scan preferDecimal text p).stop := by
  rcases rest_symbol factorial (by simp [separators]) completes with
    ⟨_, rest⟩ | ⟨⟨_, _, operator⟩, _⟩ | ⟨sign, _⟩ | ⟨opens, _⟩
  · exact rest
  · exact absurd (by simp) (operator_other operator).1
  · simp [signs] at sign
  · cases opens

theorem take_call {mark : Bool}
    (opens : (Token.scan preferDecimal text p).lexeme = .symbol .bracketOpen)
    (completes : Completes preferDecimal text (.rest mark) frames p) :
    Completes preferDecimal text (.operand false) (.argument :: frames)
      (Token.scan preferDecimal text p).stop := by
  rcases rest_symbol opens (by simp [separators]) completes with
    ⟨factorial, _⟩ | ⟨⟨_, _, operator⟩, _⟩ | ⟨sign, _⟩ | ⟨_, rest⟩
  · cases factorial
  · exact absurd (by simp) (operator_other operator).1
  · simp [signs] at sign
  · exact rest.bracket_argument

theorem no_equals {mark : Bool}
    (equals : (Token.scan preferDecimal text p).lexeme = .symbol .equal)
    (completes : Completes preferDecimal text (.rest mark) frames p) : False := by
  rcases rest_symbol equals (by simp [separators]) completes with
    ⟨factorial, _⟩ | ⟨⟨_, _, operator⟩, _⟩ | ⟨sign, _⟩ | ⟨opens, _⟩
  · cases factorial
  · exact absurd (by simp) (operator_other operator).1
  · simp [signs] at sign
  · cases opens

end Completes

end Reckoner.Grammar

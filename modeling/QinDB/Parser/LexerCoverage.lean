/-
# Parser.LexerCoverage — the tokens of a source cover it

`nulEscaped` is an automaton that goes through a source unit by unit. It follows words, numbers,
comments and texts as far as they decide what a unit means, and reads a NUL only where a
backslash escapes it inside a text.

* `scanToken_consumes`: a token that is not the end consumes something, and the automaton is where
  it was before.
* `covers_iff`: repeated calls of `nextToken` cover a source exactly when `nulEscaped` accepts it.
* `nul_ends_source`: any other NUL is taken for the end.
-/
import QinDB.Parser.Lexer

namespace QinDB.Parser

set_option autoImplicit false

@[simp] theorem current_cons (c : QChar) (rest : List QChar) : current (c :: rest) = c := rfl

@[simp] theorem peek_cons (c : QChar) (rest : List QChar) : peek (c :: rest) = current rest := rfl

/-! ## The automaton -/

/-- Where a unit stands. -/
inductive Mode
  | plain | word | whole | fraction | exponent | power | line | opening | block | closing
  | text (quote : QChar) | escaped (quote : QChar)
  deriving DecidableEq

variable (u : Unicode)

/-- After the first unit of a token, a comment or a blank. -/
def Mode.start (c next : QChar) : Mode :=
  if c = '-' ∧ next = '-' then .line
  else if c = '/' ∧ next = '*' then .opening
  else if u.isDigit c then .whole
  else if c = '\'' ∨ c = '"' then .text c
  else if u.isLetter c ∨ c = '_' then .word
  else .plain

def Mode.step (c next : QChar) : Mode → Mode
  | .plain => start u c next
  | .word => if u.isLetterOrNumber c ∨ c = '_' then .word else start u c next
  | .whole =>
      if u.isDigit c then .whole
      else if c = '.' ∧ u.isDigit next then .fraction
      else start u c next
  | .fraction =>
      if u.isDigit c then .fraction else if c = 'e' ∨ c = 'E' then .exponent else start u c next
  | .exponent => if c = '+' ∨ c = '-' ∨ u.isDigit c then .power else start u c next
  | .power => if u.isDigit c then .power else start u c next
  | .line => if c = '\n' then .plain else .line
  | .opening => .block
  | .block => if c = '*' ∧ next = '/' then .closing else .block
  | .closing => .plain
  | .text quote => if c = quote then .plain else if c = '\\' then .escaped quote else .text quote
  | .escaped quote => .text quote

/-- Every NUL is escaped inside a text. -/
def nulEscaped : Mode → List QChar → Bool
  | _, [] => true
  | .escaped quote, _ :: rest => nulEscaped (.text quote) rest
  | mode, c :: rest => c != 0 && nulEscaped (mode.step u c (current rest)) rest

variable {u} {rest tail : List QChar} {c : QChar}

theorem nulEscaped_cons {mode : Mode} (plain : ∀ quote, mode ≠ .escaped quote) (c : QChar)
    (rest : List QChar) :
    nulEscaped u mode (c :: rest) = (c != 0 && nulEscaped u (mode.step u c (current rest)) rest) := by
  cases mode with
  | escaped quote => exact absurd rfl (plain quote)
  | _ => rfl

/-- A loop that stays in a mode. -/
theorem nulEscaped_while (mode : Mode) {p : QChar → Bool} (plain : ∀ quote, mode ≠ .escaped quote)
    (stays : ∀ c next, p c = true → c ≠ 0 ∧ mode.step u c next = mode) (rest : List QChar) :
    nulEscaped u mode rest = nulEscaped u mode (rest.dropWhile p) := by
  induction rest with
  | nil => rfl
  | cons c rest ih =>
    rw [List.dropWhile_cons]
    split
    · rename_i inside
      obtain ⟨some, same⟩ := stays c (current rest) inside
      rw [nulEscaped_cons plain, same, ih]
      simp [some]
    · rfl

/-- A mode that is left is left for the plain one. -/
theorem nulEscaped_leave {mode : Mode} (plain : ∀ quote, mode ≠ .escaped quote)
    (leaves : ∀ c tail, rest = c :: tail → mode.step u c (current tail) = .start u c (current tail)) :
    nulEscaped u mode rest = nulEscaped u .plain rest := by
  cases rest with
  | nil => rw [nulEscaped, nulEscaped]
  | cons c tail =>
    rw [nulEscaped_cons plain, nulEscaped_cons (by simp), leaves c tail rfl]
    rfl

/-! ## Blanks and comments -/

theorem start_of_space (space : u.isSpace c = true) (next : QChar) :
    c ≠ 0 ∧ Mode.start u c next = .plain := by
  have differs : ∀ d : QChar, d < 128 → (d == 32 || (9 ≤ d && d ≤ 13)) = false → c ≠ d := by
    rintro d small other rfl
    rw [(u.ascii c small).1, other] at space
    cases space
  refine ⟨differs 0 (by decide) (by decide), ?_⟩
  simp [Mode.start, u.space c space, differs (unit '-') (by decide) (by decide),
    differs (unit '/') (by decide) (by decide), differs (unit '_') (by decide) (by decide),
    differs (unit '\'') (by decide) (by decide), differs (unit '"') (by decide) (by decide)]

theorem nulEscaped_skipWhitespace (rest : List QChar) :
    nulEscaped u .plain (skipWhitespace u rest) = nulEscaped u .plain rest :=
  (nulEscaped_while .plain (by simp) (fun _ next space => start_of_space space next) rest).symm

theorem isSpace_newline : u.isSpace (unit '\n') = true := (u.ascii _ (by decide)).1

theorem nulEscaped_line (rest : List QChar) : nulEscaped u .line rest =
    nulEscaped u .plain (rest.dropWhile fun c => c ≠ unit '\n' ∧ c ≠ 0) := by
  induction rest with
  | nil => rfl
  | cons c rest ih =>
    rw [List.dropWhile_cons, nulEscaped_cons (by simp), Mode.step]
    by_cases newline : c = unit '\n'
    · have space := start_of_space (u := u) (newline ▸ isSpace_newline) (current rest)
      rw [if_pos newline, if_neg (by simp [newline]), nulEscaped_cons (by simp), Mode.step, space.2]
    · rw [if_neg newline, ih]
      by_cases nul : c = 0
      · subst nul
        rfl
      · simp [newline, nul]

theorem nulEscaped_block (rest : List QChar) :
    nulEscaped u .block rest = nulEscaped u .plain (skipBlock rest) := by
  induction rest with
  | nil => rfl
  | cons c rest ih =>
    rw [skipBlock, nulEscaped_cons (by simp), Mode.step]
    by_cases ends : c = unit '*' ∧ current rest = unit '/'
    · rw [if_pos ends, if_pos ends, ends.1]
      cases rest with
      | nil => exact absurd ends.2 (by decide)
      | cons d tail =>
        have slash : d = unit '/' := ends.2
        subst slash
        rfl
    · rw [if_neg ends, if_neg ends, ih]
      by_cases nul : c = 0
      · subst nul
        rfl
      · simp [nul]

/-- The two kinds of comment. -/
theorem skipComment_cases (comment : startsComment rest = true) :
    (∃ tail, rest = unit '-' :: unit '-' :: tail ∧
      skipComment rest = tail.dropWhile fun c => c ≠ unit '\n' ∧ c ≠ 0) ∨
    ∃ tail, rest = unit '/' :: unit '*' :: tail ∧ skipComment rest = skipBlock tail := by
  simp only [startsComment, decide_eq_true_eq] at comment
  match rest, comment with
  | [], comment => exact absurd comment (by decide)
  | [c], comment =>
    have impossible : (0 : QChar) = unit '-' ∨ (0 : QChar) = unit '*' :=
      comment.imp And.right And.right
    exact absurd impossible (by decide)
  | c :: d :: tail, comment =>
    rcases comment with ⟨first, second⟩ | ⟨first, second⟩
    · have first : c = unit '-' := first
      have second : d = unit '-' := second
      subst first second
      exact .inl ⟨tail, rfl, rfl⟩
    · have first : c = unit '/' := first
      have second : d = unit '*' := second
      subst first second
      exact .inr ⟨tail, rfl, rfl⟩

theorem nulEscaped_skipComment (comment : startsComment rest = true) :
    nulEscaped u .plain (skipComment rest) = nulEscaped u .plain rest := by
  rcases skipComment_cases comment with ⟨tail, rfl, skipped⟩ | ⟨tail, rfl, skipped⟩
  · rw [skipped, ← nulEscaped_line]
    rfl
  · rw [skipped, ← nulEscaped_block]
    rfl

theorem length_skipBlock_le (rest : List QChar) : (skipBlock rest).length ≤ rest.length := by
  induction rest with
  | nil => exact Nat.le_refl _
  | cons c rest ih =>
    rw [skipBlock]
    split
    · simp; omega
    · split
      · exact Nat.le_refl _
      · simp; omega

theorem length_skipComment_lt (comment : startsComment rest = true) :
    (skipComment rest).length < rest.length := by
  rcases skipComment_cases comment with ⟨tail, rfl, skipped⟩ | ⟨tail, rfl, skipped⟩
  · have shorter := (List.dropWhile_sublist (l := tail)
      fun c => decide (c ≠ unit '\n' ∧ c ≠ 0)).length_le
    rw [skipped, List.length_cons, List.length_cons]
    omega
  · have shorter := length_skipBlock_le tail
    rw [skipped, List.length_cons, List.length_cons]
    omega

/-- The rounds suffice: what is left begins with no comment. -/
theorem skipComments_spec (rounds : Nat) : ∀ rest : List QChar, rest.length ≤ rounds →
    startsComment (skipComments u rounds rest) = false ∧
    (skipComments u rounds rest).length ≤ rest.length ∧
    nulEscaped u .plain (skipComments u rounds rest) = nulEscaped u .plain rest := by
  induction rounds with
  | zero =>
    intro rest short
    rw [List.length_eq_zero_iff.mp (Nat.le_zero.mp short)]
    exact ⟨rfl, Nat.le_refl _, rfl⟩
  | succ rounds ih =>
    intro rest short
    rw [skipComments]
    split
    · rename_i comment
      have shorter := length_skipComment_lt comment
      have blank := (List.dropWhile_sublist (l := skipComment rest) u.isSpace).length_le
      obtain ⟨done, length, same⟩ := ih (skipWhitespace u (skipComment rest)) (by
        rw [skipWhitespace]; omega)
      refine ⟨done, ?_, ?_⟩
      · exact Nat.le_trans length (Nat.le_trans blank (Nat.le_of_lt shorter))
      · rw [same, nulEscaped_skipWhitespace, nulEscaped_skipComment comment]
    · rename_i none
      exact ⟨by simpa using none, Nat.le_refl _, rfl⟩

theorem skipBlanks_spec (rest : List QChar) : startsComment (skipBlanks u rest) = false ∧
    (skipBlanks u rest).length ≤ rest.length ∧
    nulEscaped u .plain (skipBlanks u rest) = nulEscaped u .plain rest := by
  have blank := (List.dropWhile_sublist (l := rest) u.isSpace).length_le
  obtain ⟨done, length, same⟩ :=
    skipComments_spec (u := u) rest.length (skipWhitespace u rest) blank
  exact ⟨done, Nat.le_trans length blank, same.trans (nulEscaped_skipWhitespace rest)⟩

/-! ## Tokens -/

variable {V : Type} {values : LiteralValues V}

theorem isDigit_nul : u.isDigit 0 = false := (u.ascii 0 (by decide)).2.1

theorem nulEscaped_digits (mode : Mode) (plain : ∀ quote, mode ≠ .escaped quote)
    (stays : ∀ c next, u.isDigit c = true → mode.step u c next = mode) (rest : List QChar) :
    nulEscaped u mode rest = nulEscaped u mode (rest.dropWhile u.isDigit) :=
  nulEscaped_while mode plain (fun c next digit => by
    refine ⟨?_, stays c next digit⟩
    rintro rfl
    rw [isDigit_nul] at digit
    cases digit) rest

/-- The first unit that a loop leaves. -/
theorem dropWhile_stops {p : QChar → Bool} (left : rest.dropWhile p = c :: tail) : p c = false := by
  have stopped := List.head_dropWhile_not p (l := rest) (by rw [left]; simp)
  simpa [left] using stopped

theorem nulEscaped_power (rest : List QChar) :
    nulEscaped u .power rest = nulEscaped u .plain (rest.dropWhile u.isDigit) := by
  rw [nulEscaped_digits .power (by simp) (fun c next digit => if_pos digit) rest]
  refine nulEscaped_leave (by simp) fun c tail left => ?_
  rw [Mode.step, dropWhile_stops left]
  rfl

theorem nulEscaped_exponent (rest : List QChar) : nulEscaped u .exponent rest =
    nulEscaped u .plain ((if current rest = unit '+' ∨ current rest = unit '-' then rest.tail
      else rest).dropWhile u.isDigit) := by
  cases rest with
  | nil => rfl
  | cons c tail =>
    rw [current_cons, List.tail_cons]
    by_cases sign : c = unit '+' ∨ c = unit '-'
    · have some : c ≠ 0 := by rcases sign with rfl | rfl <;> decide
      rw [if_pos sign, nulEscaped_cons (by simp), Mode.step,
        if_pos (by rw [← or_assoc]; exact .inl sign), nulEscaped_power]
      simp [some]
    · rw [if_neg sign]
      cases digit : u.isDigit c with
      | true =>
        rw [← nulEscaped_power, nulEscaped_cons (by simp), nulEscaped_cons (by simp), Mode.step,
          Mode.step, if_pos digit, if_pos (.inr (.inr digit))]
      | false =>
        rw [List.dropWhile_cons_of_neg (by simp [digit])]
        refine nulEscaped_leave (by simp) fun d tail' same => ?_
        cases same
        exact if_neg (by simp [sign, digit])

theorem nulEscaped_fraction (stopped : ∀ c tail, rest = c :: tail → u.isDigit c = false) :
    nulEscaped u .fraction rest = nulEscaped u .plain (skipExponent u rest) := by
  cases rest with
  | nil => rfl
  | cons c tail =>
    have step := stopped c tail rfl
    rw [skipExponent, current_cons]
    by_cases power : c = unit 'e' ∨ c = unit 'E'
    · have some : c ≠ 0 := by rcases power with rfl | rfl <;> decide
      rw [if_pos power, nulEscaped_cons (by simp), Mode.step, step, if_neg (by simp),
        if_pos power, nulEscaped_exponent, bne_iff_ne.mpr some, Bool.true_and]
      rfl
    · rw [if_neg power]
      refine nulEscaped_leave (by simp) fun d tail' same => ?_
      cases same
      rw [Mode.step, step, if_neg (by simp), if_neg power]

theorem length_skipExponent_le (rest : List QChar) :
    (skipExponent u rest).length ≤ rest.length := by
  rw [skipExponent]
  split
  · refine Nat.le_trans (List.dropWhile_sublist u.isDigit).length_le ?_
    split
    · exact ((List.tail_sublist _).trans (List.tail_sublist _)).length_le
    · exact (List.tail_sublist _).length_le
  · exact Nat.le_refl _

variable (values) in
theorem nulEscaped_scanNumber (digit : u.isDigit c = true) :
    nulEscaped u .whole tail = nulEscaped u .plain (scanNumber u values (c :: tail)).2 ∧
      (scanNumber u values (c :: tail)).2.length ≤ tail.length := by
  have dropped := (List.dropWhile_sublist (l := tail) u.isDigit).length_le
  rw [nulEscaped_digits .whole (by simp) (fun c next digit => if_pos digit) tail]
  rw [scanNumber, List.dropWhile_cons_of_pos digit]
  split
  · rename_i point
    cases left : tail.dropWhile u.isDigit with
    | nil => exact absurd point.1 (by rw [left]; decide)
    | cons d rest =>
      rw [left, current_cons, peek_cons] at point
      rw [left, List.length_cons] at dropped
      constructor
      · rw [nulEscaped_cons (by simp), Mode.step, dropWhile_stops left, if_neg (by simp),
          if_pos point, nulEscaped_digits .fraction (by simp)
            (fun c next digit => if_pos digit) rest,
          nulEscaped_fraction fun c tail => dropWhile_stops, point.1]
        rfl
      · have fraction := (List.dropWhile_sublist (l := rest) u.isDigit).length_le
        have exponent := length_skipExponent_le (u := u) (rest.dropWhile u.isDigit)
        exact Nat.le_trans exponent (Nat.le_trans fraction (by omega))
  · rename_i integer
    refine ⟨nulEscaped_leave (by simp) fun d rest left => ?_, dropped⟩
    rw [left, current_cons, peek_cons] at integer
    rw [Mode.step, dropWhile_stops left, if_neg (by simp), if_neg integer]

theorem nulEscaped_scanText (quote : QChar) (some : quote ≠ 0) (rest : List QChar) :
    let after := (scanText quote rest).2
    nulEscaped u (.text quote) rest =
        nulEscaped u .plain (if current after = 0 then after else after.tail) ∧
      after.length ≤ rest.length := by
  fun_induction scanText quote rest with
  | case1 => exact ⟨rfl, Nat.le_refl _⟩
  | case2 c rest stops =>
    refine ⟨?_, Nat.le_refl _⟩
    rw [nulEscaped_cons (by simp), Mode.step, current_cons]
    rcases stops with rfl | rfl
    · rw [if_pos rfl, if_neg some, bne_iff_ne.mpr some]
      rfl
    · rfl
  | case3 goes => exact ⟨by simp_all [nulEscaped, current], Nat.zero_le _⟩
  | case4 escaped rest goes ih =>
    rw [not_or] at goes
    refine ⟨Eq.trans ?_ ih.1, Nat.le_trans ih.2 (by simp only [List.length_cons]; omega)⟩
    rw [nulEscaped_cons (by simp), Mode.step, if_neg goes.1, if_pos rfl]
    rfl
  | case5 c rest goes other ih =>
    rw [not_or] at goes
    refine ⟨Eq.trans ?_ ih.1, Nat.le_succ_of_le ih.2⟩
    rw [nulEscaped_cons (by simp), Mode.step, if_neg goes.1, if_neg other,
      bne_iff_ne.mpr goes.2, Bool.true_and]

theorem wordChar_nul : decide (u.isLetterOrNumber 0 ∨ (0 : QChar) = unit '_') = false := by
  have ascii := u.ascii 0 (by decide)
  simp [ascii.2.2.2, ascii.2.1, ascii.2.2.1]
  decide

theorem nulEscaped_word (rest : List QChar) : nulEscaped u .word rest =
    nulEscaped u .plain (rest.dropWhile fun c => u.isLetterOrNumber c ∨ c = unit '_') := by
  rw [nulEscaped_while .word
    (p := fun c => decide (u.isLetterOrNumber c ∨ c = unit '_')) (by simp) (fun c next inside => by
      refine ⟨?_, if_pos (of_decide_eq_true inside)⟩
      rintro rfl
      rw [wordChar_nul] at inside
      cases inside) rest]
  refine nulEscaped_leave (by simp) fun c tail left => ?_
  rw [Mode.step, if_neg (of_decide_eq_false (dropWhile_stops left))]

/-- A first unit that begins neither a comment nor a number, a text or a word. -/
theorem start_of_mark (some : c ≠ 0)
    (comment : startsComment (c :: tail) = false) (digit : u.isDigit c = false)
    (quote : ¬ (c = unit '\'' ∨ c = unit '"')) (word : ¬ (u.isLetter c ∨ c = unit '_')) :
    nulEscaped u .plain (c :: tail) = nulEscaped u .plain tail := by
  have notComment := of_decide_eq_false comment
  rw [current_cons, peek_cons, not_or] at notComment
  rw [nulEscaped_cons (by simp), Mode.step, Mode.start, if_neg notComment.1, if_neg notComment.2,
    digit, if_neg (by simp), if_neg quote, if_neg word, bne_iff_ne.mpr some, Bool.true_and]

theorem operators_spec : ∀ operator ∈ operators, operator.2 ≠ .EOF_TOKEN ∧ operator.1 ≠ [] ∧
    ∀ d ∈ operator.1.tail, d = '=' ∨ d = '>' := by
  have all : ∀ operator ∈ operators, operator.2 ≠ .EOF_TOKEN ∧ operator.1 ≠ [] ∧
      operator.1.tail.all (fun d => d = '=' ∨ d = '>') = true := by decide
  simpa only [List.all_eq_true, decide_eq_true_eq] using all

/-- The later units of an operator. -/
theorem nulEscaped_operator (more : List Char) (rest : List QChar)
    (all : ∀ d ∈ more, d = '=' ∨ d = '>') :
    nulEscaped u .plain (more.map unit ++ rest) = nulEscaped u .plain rest := by
  induction more with
  | nil => rfl
  | cons d more ih =>
    obtain ⟨here, later⟩ := List.forall_mem_cons.mp all
    rw [← ih later, List.map_cons, List.cons_append]
    have small : unit d < 128 := by rcases here with rfl | rfl <;> decide
    have ascii := u.ascii (unit d) small
    apply start_of_mark
    · rcases here with rfl | rfl <;> decide
    · have marks : unit d ≠ unit '-' ∧ unit d ≠ unit '/' := by rcases here with rfl | rfl <;> decide
      simp [startsComment, marks]
    · rw [ascii.2.1]
      rcases here with rfl | rfl <;> decide
    · rcases here with rfl | rfl <;> decide
    · rw [ascii.2.2.1]
      rcases here with rfl | rfl <;> decide

theorem keywordMap_ne_eof : ∀ keyword ∈ keywordMap, keyword.2 ≠ .EOF_TOKEN := by decide

theorem identifierType_ne_eof (ident : Storage.Identifier) :
    identifierType u ident ≠ .EOF_TOKEN := by
  rw [identifierType]
  cases found : keywordMap.lookup (u.toLower ident) with
  | none => simp
  | some type =>
    obtain ⟨before, after, split, _⟩ := List.lookup_eq_some_iff.mp found
    exact keywordMap_ne_eof (u.toLower ident, type) (by rw [split]; simp)

variable (u) in
/-- What a scan from a unit that is not NUL does: it consumes something and leaves the automaton
where it was. -/
def Consumes (c : QChar) (tail : List QChar) (scanned : Scanned V) : Prop :=
  scanned.1.type ≠ .EOF_TOKEN ∧ scanned.2.2.length ≤ tail.length ∧
    nulEscaped u .plain (c :: tail) = nulEscaped u .plain scanned.2.2

theorem consumes_string (some : c ≠ 0)
    (first : nulEscaped u .plain (c :: tail) = nulEscaped u (.text c) tail) :
    Consumes u c tail (scanString values (c :: tail)) := by
  obtain ⟨same, shorter⟩ := nulEscaped_scanText (u := u) c some tail
  rw [← first] at same
  by_cases ends : current (scanText c tail).2 = 0
  · rw [if_pos ends] at same
    have scanned : scanString values (c :: tail) = (_, _, (scanText c tail).2) := if_pos ends
    rw [scanned]
    exact ⟨by simp [makeToken], shorter, same⟩
  · rw [if_neg ends] at same
    have scanned : scanString values (c :: tail) = (_, _, (scanText c tail).2.tail) := if_neg ends
    rw [scanned]
    exact ⟨by simp, Nat.le_trans (List.tail_sublist _).length_le shorter, same⟩

theorem consumes_operator {operator : List Char × TokenType}
    (found : operators.find? (fun operator => (operator.1.map unit).isPrefixOf (c :: tail)) =
      some operator)
    (mark : nulEscaped u .plain (c :: tail) = nulEscaped u .plain tail) :
    Consumes u c tail (makeToken values operator.2 operator.1, none,
      (c :: tail).drop operator.1.length) := by
  obtain ⟨type, some, later⟩ := operators_spec operator (List.mem_of_find?_eq_some found)
  have starts := List.find?_some found
  obtain ⟨lexeme, kind⟩ := operator
  cases lexeme with
  | nil => exact absurd rfl some
  | cons d more =>
    obtain ⟨rest, same⟩ := List.isPrefixOf_iff_prefix.mp starts
    rw [List.map_cons, List.cons_append] at same
    cases same
    refine ⟨type, by simp, mark.trans ?_⟩
    rw [nulEscaped_operator more rest later, List.length_cons, List.drop_succ_cons,
      List.drop_left' (List.length_map unit)]

variable (values) in
theorem scanToken_consumes (some : c ≠ 0) (comment : startsComment (c :: tail) = false) :
    Consumes u c tail (scanToken u values (c :: tail)) := by
  have notComment := of_decide_eq_false comment
  rw [current_cons, peek_cons, not_or] at notComment
  have first : nulEscaped u .plain (c :: tail) =
      nulEscaped u (.start u c (current tail)) tail := by
    rw [nulEscaped_cons (by simp), bne_iff_ne.mpr some, Bool.true_and]
    rfl
  rw [Mode.start, if_neg notComment.1, if_neg notComment.2] at first
  rw [scanToken, current_cons, scanFrom, if_neg some]
  by_cases digit : u.isDigit c = true
  · rw [if_pos digit] at first ⊢
    obtain ⟨same, shorter⟩ := nulEscaped_scanNumber values digit
    have type : (scanNumber u values (c :: tail)).1.type ≠ .EOF_TOKEN := by
      rw [scanNumber]
      split <;> simp
    exact ⟨type, shorter, first.trans same⟩
  rw [if_neg digit] at first ⊢
  by_cases quote : c = unit '\'' ∨ c = unit '"'
  · rw [if_pos quote] at first ⊢
    exact consumes_string some first
  rw [if_neg quote] at first ⊢
  by_cases word : u.isLetter c ∨ c = unit '_'
  · rw [if_pos word] at first ⊢
    have inside : decide (u.isLetterOrNumber c ∨ c = unit '_') = true :=
      decide_eq_true (word.imp_left (u.word c))
    have dropped : (scanIdentifier u values (c :: tail)).2 =
        tail.dropWhile fun c => u.isLetterOrNumber c ∨ c = unit '_' :=
      List.dropWhile_cons_of_pos (p := fun c => decide (u.isLetterOrNumber c ∨ c = unit '_')) inside
    refine ⟨identifierType_ne_eof _, ?_, ?_⟩
    · rw [dropped]
      exact (List.dropWhile_sublist _).length_le
    · rw [first, nulEscaped_word, dropped]
  · rw [if_neg word] at first ⊢
    cases found : operators.find? fun operator =>
        (operator.1.map unit).isPrefixOf (c :: tail) with
    | none => exact ⟨by simp [makeToken], Nat.le_refl _, first⟩
    | some operator => exact consumes_operator found first

/-! ## Calls -/

/-- A text that goes on to the end of the source. -/
def unterminated (quote : QChar) : List QChar → Bool
  | [] => true
  | c :: rest =>
      if c = quote then false
      else if c = '\\' then
        match rest with
        | [] => true
        | _ :: rest => unterminated quote rest
      else unterminated quote rest

theorem current_scanText_of_unterminated {quote : QChar} (rest : List QChar)
    (open_ : unterminated quote rest = true) : current (scanText quote rest).2 = 0 := by
  fun_induction scanText quote rest with
  | case1 => rfl
  | case2 c rest stops =>
    rcases stops with rfl | rfl
    · rw [unterminated.eq_def] at open_
      simp at open_
    · rfl
  | case3 => rfl
  | case4 escaped rest goes ih =>
    rw [not_or] at goes
    rw [unterminated, if_neg goes.1, if_pos rfl] at open_
    exact ih open_
  | case5 c rest goes other ih =>
    rw [not_or] at goes
    rw [unterminated.eq_def] at open_
    simp only [if_neg goes.1, if_neg other] at open_
    exact ih open_

variable (u values) in
/-- The lexer after a number of calls of `nextToken`. -/
def after (source : List QChar) : Nat → Lexer V
  | 0 => .new source
  | calls + 1 => (nextToken u values (after source calls)).2

variable (u values) in
/-- The token of the next call. -/
def tokenAt (source : List QChar) (calls : Nat) : Token V :=
  (nextToken u values (after u values source calls)).1

variable (u values) in
/-- The calls cover the source. -/
structure Covers (source : List QChar) : Prop where
  /-- The end comes at the latest after one call per unit. -/
  ends : ∃ calls ≤ source.length, (tokenAt u values source calls).type = .EOF_TOKEN
  /-- Every other call consumes something. -/
  consumes : ∀ calls, (tokenAt u values source calls).type ≠ .EOF_TOKEN →
    (after u values source (calls + 1)).rest.length < (after u values source calls).rest.length
  /-- The end comes when nothing is left. -/
  whole : ∀ calls, (tokenAt u values source calls).type = .EOF_TOKEN →
    (after u values source (calls + 1)).rest = []
  /-- A text without an end is an error. -/
  texts : ∀ calls quote tail, skipBlanks u (after u values source calls).rest = quote :: tail →
    quote = unit '\'' ∨ quote = unit '"' → unterminated quote tail = true →
      (tokenAt u values source calls).type = .INVALID ∧
        (after u values source (calls + 1)).error =
          some ⟨"Unterminated string literal".toList, []⟩

section Calls

variable {source : List QChar} (calls : Nat)

theorem after_peeked : (after u values source calls).peeked = none := by
  induction calls with
  | zero => rfl
  | succ calls ih =>
    rw [after, nextToken, ih]

theorem nextToken_after : nextToken u values (after u values source calls) =
    let (token, error, rest) :=
      scanToken u values (skipBlanks u (after u values source calls).rest)
    (token, ⟨rest, error.or (after u values source calls).error, none⟩) := by
  rw [nextToken, after_peeked]

variable (u values source) in
/-- What a call does: at the end or at a NUL it stops, otherwise it consumes something. -/
theorem call_cases :
    let start := skipBlanks u (after u values source calls).rest
    let next := (after u values source (calls + 1)).rest
    current start = 0 ∧ (tokenAt u values source calls).type = .EOF_TOKEN ∧ next = start ∨
    (tokenAt u values source calls).type ≠ .EOF_TOKEN ∧
      next.length < (after u values source calls).rest.length ∧
      nulEscaped u .plain next = nulEscaped u .plain (after u values source calls).rest := by
  obtain ⟨comment, shorter, same⟩ := skipBlanks_spec (u := u) (after u values source calls).rest
  simp only [after, tokenAt, nextToken_after]
  generalize skipBlanks u (after u values source calls).rest = start at comment shorter same
  by_cases nul : current start = 0
  · refine .inl ⟨nul, ?_⟩
    rw [scanToken, nul, scanFrom, if_pos rfl]
    exact ⟨rfl, rfl⟩
  · cases start with
    | nil => exact absurd rfl nul
    | cons c tail =>
      obtain ⟨type, length, kept⟩ := scanToken_consumes values nul comment
      refine .inr ⟨type, ?_, kept.symm.trans same⟩
      rw [List.length_cons] at shorter
      exact Nat.lt_of_le_of_lt length shorter

variable (u values source) in
theorem ends_within (length : Nat) : ∀ calls, (after u values source calls).rest.length ≤ length →
    ∃ later ≤ calls + length, (tokenAt u values source later).type = .EOF_TOKEN := by
  induction length with
  | zero =>
    intro calls empty
    rcases call_cases u values source calls with
      ⟨_, ends, _⟩ | ⟨_, shorter, _⟩
    · exact ⟨calls, Nat.le_refl _, ends⟩
    · omega
  | succ length ih =>
    intro calls short
    rcases call_cases u values source calls with
      ⟨_, ends, _⟩ | ⟨_, shorter, _⟩
    · exact ⟨calls, by omega, ends⟩
    · obtain ⟨later, bound, ends⟩ := ih (calls + 1) (by omega)
      exact ⟨later, by omega, ends⟩

variable (values) in
theorem nulEscaped_after (escaped : nulEscaped u .plain source = true) :
    nulEscaped u .plain (after u values source calls).rest = true := by
  induction calls with
  | zero => exact escaped
  | succ calls ih =>
    rcases call_cases u values source calls with
      ⟨_, _, stays⟩ | ⟨_, _, same⟩
    · rw [stays, (skipBlanks_spec _).2.2, ih]
    · rw [same, ih]

/-- Nothing is left at an end, so that no NUL was met. -/
theorem nulEscaped_of_whole (whole : ∀ calls, (tokenAt u values source calls).type = .EOF_TOKEN →
    (after u values source (calls + 1)).rest = []) (length : Nat) :
    ∀ calls, (after u values source calls).rest.length ≤ length →
      nulEscaped u .plain (after u values source calls).rest = true := by
  induction length with
  | zero =>
    intro calls empty
    rw [List.length_eq_zero_iff.mp (Nat.le_zero.mp empty)]
    rfl
  | succ length ih =>
    intro calls short
    rcases call_cases u values source calls with
      ⟨_, ends, stays⟩ | ⟨_, shorter, same⟩
    · rw [← (skipBlanks_spec _).2.2, ← stays, whole calls ends]
      rfl
    · rw [← same]
      exact ih (calls + 1) (by omega)

end Calls

/-- Calls of `nextToken` cover a source exactly when each of its NULs is escaped in a text. -/
theorem covers_iff (u : Unicode) (values : LiteralValues V) (source : List QChar) :
    Covers u values source ↔ nulEscaped u .plain source = true := by
  constructor
  · intro covers
    exact nulEscaped_of_whole covers.whole source.length 0 (Nat.le_refl _)
  · intro escaped
    refine ⟨?_, ?_, ?_, ?_⟩
    · obtain ⟨later, bound, ends⟩ := ends_within u values source source.length 0 (Nat.le_refl _)
      exact ⟨later, by omega, ends⟩
    · intro calls goes
      rcases call_cases u values source calls with
        ⟨_, ends, _⟩ | ⟨_, shorter, _⟩
      · exact absurd ends goes
      · exact shorter
    · intro calls ends
      rcases call_cases u values source calls with
        ⟨nul, _, stays⟩ | ⟨goes, _⟩
      · have clean := nulEscaped_after values (calls + 1) escaped
        rw [stays] at clean ⊢
        cases left : skipBlanks u (after u values source calls).rest with
        | nil => rfl
        | cons c tail =>
          rw [left, current_cons] at nul
          rw [left, nul] at clean
          cases clean
      · exact absurd ends goes
    · intro calls quote tail starts kind open_
      have other : quote ≠ 0 := by rcases kind with rfl | rfl <;> decide
      have digit : u.isDigit quote = false := by
        rcases kind with rfl | rfl <;> exact (u.ascii _ (by decide)).2.1
      have scanned : scanToken u values (quote :: tail) = scanString values (quote :: tail) := by
        rw [scanToken, current_cons, scanFrom, if_neg other, digit, if_neg (by simp), if_pos kind]
      have invalid : scanString values (quote :: tail) = (makeToken values .INVALID _, some _, _) :=
        if_pos (current_scanText_of_unterminated tail open_)
      simp only [tokenAt, after, nextToken_after, starts, scanned, invalid]
      exact ⟨rfl, rfl⟩

/-- A NUL between two words is the end for the lexer; the second word is never read. -/
theorem nul_ends_source : ¬ Covers .basic .integers [unit 'a', 0, unit 'b'] := fun covers =>
  absurd (nulEscaped_of_whole covers.whole 3 0 (Nat.le_refl _)) (by decide)

end QinDB.Parser

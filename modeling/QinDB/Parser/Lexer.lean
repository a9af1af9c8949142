/-
# Parser.Lexer — units into tokens

`lexer.cpp`. The source is a list of UTF-16 units, of which the lexer keeps those it has not
consumed; beyond the end it reads NUL. Lines and columns are left out, and `m_position` is an
`int` that a source of fewer than 2 ^ 31 units does not overflow. What Qt knows about
characters is a structure that carries what is used of it: how the ASCII characters are
classified, and that spaces are neither digits nor letters.
-/
import QinDB.Parser.Ast

namespace QinDB.Parser

open QinDB.Storage

set_option autoImplicit false

/-! ## Characters -/

abbrev QChar := UInt16

/-- The unit of a character of the Basic Multilingual Plane. -/
def unit (c : Char) : QChar := UInt16.ofNat c.toNat

instance : Coe Char QChar := ⟨unit⟩

/-- `QChar`'s classes and `QString`'s case mappings. -/
structure Unicode where
  isSpace : QChar → Bool
  isDigit : QChar → Bool
  isLetter : QChar → Bool
  isLetterOrNumber : QChar → Bool
  toLower : Identifier → Identifier
  toUpper : Identifier → Identifier
  ascii : ∀ c : QChar, c < 128 →
    isSpace c = (c == 32 || (9 ≤ c && c ≤ 13)) ∧
    isDigit c = (48 ≤ c && c ≤ 57) ∧
    isLetter c = ((65 ≤ c && c ≤ 90) || (97 ≤ c && c ≤ 122)) ∧
    isLetterOrNumber c = (isDigit c || isLetter c)
  space : ∀ c, isSpace c = true → isDigit c = false ∧ isLetter c = false
  word : ∀ c, isLetter c = true → isLetterOrNumber c = true

/-- The ASCII characters, and the long s (U+017F), whose capital is an ASCII letter. -/
def Unicode.basic : Unicode where
  isSpace c := c == 32 || (9 ≤ c && c ≤ 13)
  isDigit c := 48 ≤ c && c ≤ 57
  isLetter c := (65 ≤ c && c ≤ 90) || (97 ≤ c && c ≤ 122) || c == 383
  isLetterOrNumber c :=
    (48 ≤ c && c ≤ 57) || (65 ≤ c && c ≤ 90) || (97 ≤ c && c ≤ 122) || c == 383
  toLower text := text.map Char.toLower
  toUpper text := text.map fun c => if c = 'ſ' then 'S' else c.toUpper
  ascii c small := by
    have other : (c == 383) = false := by
      rw [beq_eq_false_iff_ne]
      rintro rfl
      exact absurd small (by decide)
    simp [other, Bool.or_assoc]
  space c := by grind
  word c := by
    intro letter
    simp only [Bool.or_assoc] at letter ⊢
    rw [letter, Bool.or_true]

/-- Code points from UTF-16 units. -/
def decode : List QChar → Identifier
  | [] => []
  | [c] => [Char.ofNat c.toNat]
  | c :: d :: rest =>
      if 0xD800 ≤ c ∧ c < 0xDC00 ∧ 0xDC00 ≤ d ∧ d < 0xE000 then
        Char.ofNat (0x10000 + (c.toNat - 0xD800) * 0x400 + (d.toNat - 0xDC00)) :: decode rest
      else Char.ofNat c.toNat :: decode (d :: rest)

/-- `QString::toLongLong`: 0 for anything but a number that fits. -/
def toLongLong (digits : List QChar) : Int :=
  let number : Nat := digits.foldl (fun n c => 10 * n + (c.toNat - 48)) 0
  if digits.all (fun c => 48 ≤ c && c ≤ 57) && decide (number < 2 ^ 63) then number else 0

/-! ## Tokens -/

inductive TokenType
  | INTEGER | FLOAT | STRING | IDENTIFIER | SELECT | FROM | WHERE | INSERT | UPDATE | DELETE
  | CREATE | DROP | ALTER | TABLE | INDEX | INTO | VALUES | SET | JOIN | INNER | LEFT | RIGHT
  | FULL | OUTER | CROSS | ON | AND | OR | NOT | IS | NULL_KW | LIKE | IN | BETWEEN | EXISTS
  | ORDER | BY | ASC | DESC | GROUP | HAVING | LIMIT | OFFSET | AS | DISTINCT | ALL | COUNT | SUM
  | AVG | MIN_KW | MAX_KW | CASE | WHEN | THEN | ELSE | END | IF | NOT_EXISTS | IF_EXISTS
  | PRIMARY | KEY | FOREIGN | REFERENCES | UNIQUE | CHECK | DEFAULT | INT_KW | BIGINT | FLOAT_KW
  | DOUBLE_KW | DECIMAL | CHAR | VARCHAR | TEXT | DATE | TIME | DATETIME | BOOLEAN | BLOB
  | TRUE_KW | FALSE_KW | BEGIN | COMMIT | ROLLBACK | TRANSACTION | SHOW | TABLES | INDEXES
  | DATABASE | DATABASES | USE | DESCRIBE | EXPLAIN | ANALYZE | SAVE | VACUUM | GRANT | REVOKE
  | TO | WITH | OPTION | USER | PASSWORD | IDENTIFIED | ADD | MODIFY | RENAME | COLUMN
  | CONSTRAINT | CASCADE | UNION | INTERSECT | EXCEPT | MATCH | AGAINST | AUTO_INCREMENT
  | NOT_NULL | USING | OUTFILE | FORMAT | PLUS | MINUS | STAR | SLASH | PERCENT | EQ | NE | LT
  | LE | GT | GE | ASSIGN | LPAREN | RPAREN | COMMA | SEMICOLON | DOT | EOF_TOKEN | INVALID
  deriving DecidableEq, Repr

/-- How values come out of literals. -/
structure LiteralValues (V : Type) where
  null : V
  integer : Int → V
  double : Identifier → V
  string : Identifier → V
  boolean : Bool → V

/-- Only integers and truth values are told apart. -/
def LiteralValues.integers : LiteralValues Int :=
  ⟨0, id, fun _ => 0, fun _ => 0, fun truth => if truth then 1 else 0⟩

structure Token (V : Type) where
  type : TokenType
  lexeme : Identifier
  value : V
  deriving DecidableEq, Repr

/-- Error codes are left out: nothing here reads them. -/
structure Error where
  message : Identifier
  detail : Identifier
  deriving DecidableEq, Repr

def keywordMap : List (Identifier × TokenType) :=
  [("select", .SELECT), ("from", .FROM), ("where", .WHERE), ("insert", .INSERT),
   ("update", .UPDATE), ("delete", .DELETE), ("create", .CREATE), ("drop", .DROP),
   ("alter", .ALTER), ("table", .TABLE), ("index", .INDEX), ("into", .INTO), ("values", .VALUES),
   ("set", .SET), ("join", .JOIN), ("inner", .INNER), ("left", .LEFT), ("right", .RIGHT),
   ("full", .FULL), ("outer", .OUTER), ("cross", .CROSS), ("on", .ON), ("and", .AND),
   ("or", .OR), ("not", .NOT), ("is", .IS), ("null", .NULL_KW), ("like", .LIKE), ("in", .IN),
   ("between", .BETWEEN), ("exists", .EXISTS), ("order", .ORDER), ("by", .BY), ("asc", .ASC),
   ("desc", .DESC), ("group", .GROUP), ("having", .HAVING), ("limit", .LIMIT),
   ("offset", .OFFSET), ("as", .AS), ("distinct", .DISTINCT), ("all", .ALL), ("count", .COUNT),
   ("sum", .SUM), ("avg", .AVG), ("min", .MIN_KW), ("max", .MAX_KW), ("case", .CASE),
   ("when", .WHEN), ("then", .THEN), ("else", .ELSE), ("end", .END), ("if", .IF),
   ("exists", .EXISTS), ("primary", .PRIMARY), ("key", .KEY), ("foreign", .FOREIGN),
   ("references", .REFERENCES), ("unique", .UNIQUE), ("using", .USING), ("check", .CHECK),
   ("default", .DEFAULT), ("int", .INT_KW), ("bigint", .BIGINT), ("float", .FLOAT_KW),
   ("double", .DOUBLE_KW), ("decimal", .DECIMAL), ("char", .CHAR), ("varchar", .VARCHAR),
   ("text", .TEXT), ("date", .DATE), ("time", .TIME), ("datetime", .DATETIME),
   ("boolean", .BOOLEAN), ("bool", .BOOLEAN), ("blob", .BLOB), ("true", .TRUE_KW),
   ("false", .FALSE_KW), ("begin", .BEGIN), ("commit", .COMMIT), ("rollback", .ROLLBACK),
   ("transaction", .TRANSACTION), ("show", .SHOW), ("tables", .TABLES), ("indexes", .INDEXES),
   ("database", .DATABASE), ("databases", .DATABASES), ("use", .USE), ("describe", .DESCRIBE),
   ("explain", .EXPLAIN), ("analyze", .ANALYZE), ("save", .SAVE), ("vacuum", .VACUUM),
   ("grant", .GRANT), ("revoke", .REVOKE), ("to", .TO), ("with", .WITH), ("option", .OPTION),
   ("user", .USER), ("password", .PASSWORD), ("identified", .IDENTIFIED), ("add", .ADD),
   ("modify", .MODIFY), ("rename", .RENAME), ("column", .COLUMN), ("constraint", .CONSTRAINT),
   ("cascade", .CASCADE), ("union", .UNION), ("intersect", .INTERSECT), ("except", .EXCEPT),
   ("match", .MATCH), ("against", .AGAINST), ("auto_increment", .AUTO_INCREMENT),
   ("outfile", .OUTFILE), ("format", .FORMAT)].map fun (keyword, type) => (keyword.toList, type)

/-- `rest` is what is left of the source from `m_position` on. -/
structure Lexer (V : Type) where
  rest : List QChar
  error : Option Error
  peeked : Option (Token V)

/-! ## Scanning -/

section Scanning

variable {V : Type} (u : Unicode) (values : LiteralValues V)

def Lexer.new (source : List QChar) : Lexer V := ⟨source, none, none⟩

def current (rest : List QChar) : QChar := rest.headD 0

def peek (rest : List QChar) : QChar := current rest.tail

def skipWhitespace (rest : List QChar) : List QChar := rest.dropWhile u.isSpace

/-- The inside of a block comment, up to its end or a NUL. -/
def skipBlock : List QChar → List QChar
  | [] => []
  | c :: rest =>
      if c = '*' ∧ current rest = '/' then rest.tail
      else if c = 0 then c :: rest
      else skipBlock rest

def startsComment (rest : List QChar) : Bool :=
  current rest = '-' ∧ peek rest = '-' ∨ current rest = '/' ∧ peek rest = '*'

def skipComment (rest : List QChar) : List QChar :=
  if current rest = '-' ∧ peek rest = '-' then rest.dropWhile fun c => c ≠ '\n' ∧ c ≠ 0
  else if current rest = '/' ∧ peek rest = '*' then skipBlock (rest.drop 2)
  else rest

/-- The loop over comments; each round consumes at least two units. -/
def skipComments : Nat → List QChar → List QChar
  | 0, rest => rest
  | rounds + 1, rest =>
      if startsComment rest then skipComments rounds (skipWhitespace u (skipComment rest)) else rest

def skipBlanks (rest : List QChar) : List QChar :=
  skipComments u rest.length (skipWhitespace u rest)

/-- `m_source.mid(startPos, m_position - startPos)`. -/
def consumed (start rest : List QChar) : List QChar := start.take (start.length - rest.length)

def makeToken (type : TokenType) (lexeme : Identifier) : Token V := ⟨type, lexeme, values.null⟩

/-- The optional exponent of a number with a fraction. -/
def skipExponent (rest : List QChar) : List QChar :=
  if current rest = 'e' ∨ current rest = 'E' then
    let rest := rest.tail
    let rest := if current rest = '+' ∨ current rest = '-' then rest.tail else rest
    rest.dropWhile u.isDigit
  else rest

def scanNumber (start : List QChar) : Token V × List QChar :=
  let rest := start.dropWhile u.isDigit
  if current rest = '.' ∧ u.isDigit (peek rest) then
    let rest := skipExponent u (rest.tail.dropWhile u.isDigit)
    let lexeme := decode (consumed start rest)
    (⟨.FLOAT, lexeme, values.double lexeme⟩, rest)
  else
    let digits := consumed start rest
    (⟨.INTEGER, decode digits, values.integer (toLongLong digits)⟩, rest)

/-- What a backslash and a character stand for. -/
def escape (escaped : QChar) : QChar :=
  if escaped = 'n' then '\n' else if escaped = 't' then '\t' else if escaped = 'r' then '\r'
  else escaped

/-- The loop of `scanString`: the text up to the closing quote or a NUL. -/
def scanText (quote : QChar) : List QChar → List QChar × List QChar
  | [] => ([], [])
  | c :: rest =>
      if c = quote ∨ c = 0 then ([], c :: rest)
      else if c = '\\' then
        match rest with
        | [] => ([0], [])
        | escaped :: rest => ((scanText quote rest).map (escape escaped :: ·) id)
      else (scanText quote rest).map (c :: ·) id

/-- A token, the error it records, and the rest. -/
abbrev Scanned (V : Type) := Token V × Option Error × List QChar

def scanString (start : List QChar) : Scanned V :=
  let (str, rest) := scanText (current start) start.tail
  if current rest = 0 then
    (makeToken values .INVALID (decode str), some ⟨"Unterminated string literal".toList, []⟩, rest)
  else (⟨.STRING, decode str, values.string (decode str)⟩, none, rest.tail)

def identifierType (ident : Identifier) : TokenType :=
  (keywordMap.lookup (u.toLower ident)).getD .IDENTIFIER

def scanIdentifier (start : List QChar) : Token V × List QChar :=
  let rest := start.dropWhile fun c => u.isLetterOrNumber c ∨ c = '_'
  let lexeme := decode (consumed start rest)
  (makeToken values (identifierType u lexeme) lexeme, rest)

/-- The operators and separators; of two with the same first character the longer one first. -/
def operators : List (List Char × TokenType) :=
  [(['+'], .PLUS), (['-'], .MINUS), (['*'], .STAR), (['/'], .SLASH), (['%'], .PERCENT),
   (['('], .LPAREN), ([')'], .RPAREN), ([','], .COMMA), ([';'], .SEMICOLON), (['.'], .DOT),
   (['='], .EQ), (['<', '='], .LE), (['<', '>'], .NE), (['<'], .LT), (['>', '='], .GE),
   (['>'], .GT), (['!', '='], .NE), ([':', '='], .ASSIGN)]

/-- The token that begins with the unit `c`, where neither a blank nor a comment begins. -/
def scanFrom (c : QChar) (start : List QChar) : Scanned V :=
  if c = 0 then (makeToken values .EOF_TOKEN [], none, start)
  else if u.isDigit c then
    let (token, rest) := scanNumber u values start
    (token, none, rest)
  else if c = '\'' ∨ c = '"' then scanString values start
  else if u.isLetter c ∨ c = '_' then
    let (token, rest) := scanIdentifier u values start
    (token, none, rest)
  else
    match operators.find? fun operator => (operator.1.map unit).isPrefixOf start with
    | some (lexeme, type) => (makeToken values type lexeme, none, start.drop lexeme.length)
    | none => (makeToken values .INVALID (decode [c]),
        some ⟨"Unexpected character: ".toList ++ decode [c], []⟩, start.tail)

def scanToken (start : List QChar) : Scanned V := scanFrom u values (current start) start

def nextToken (lexer : Lexer V) : Token V × Lexer V :=
  match lexer.peeked with
  | some token => (token, { lexer with peeked := none })
  | none =>
      let (token, error, rest) := scanToken u values (skipBlanks u lexer.rest)
      (token, { lexer with rest, error := error.or lexer.error })

def peekToken (lexer : Lexer V) : Token V × Lexer V :=
  match lexer.peeked with
  | some token => (token, lexer)
  | none =>
      let (token, lexer) := nextToken u values lexer
      (token, { lexer with peeked := some token })

end Scanning

end QinDB.Parser

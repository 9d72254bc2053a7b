import QVPN.Lib.Like
import QVPN.Structures.Types

/-!
# The users table

The server looks a user up by splicing the name it received into the text of a query. The
database engine is outside the model: it takes a text and calls back once for each row. What
is relied on is that a query of the expected form calls back once for each key that matches
the literal as a LIKE pattern.

The engine reads the text up to the first NUL. In a string literal two quotes stand for one. LIKE
compares characters, which the engine decodes leniently: it accepts overlong forms, and a
continuation byte outside a character is a character by itself.
-/

namespace QVPN

/-- The bytes of a string as a reader of a NUL-terminated string sees them. -/
def cString (text : List UByte) : List UByte := text.takeWhile (· ≠ 0)

/-- The rest of a string literal behind its opening quote: its value and what follows it. -/
def readLiteral : List UByte → Option (List UByte × List UByte)
  | [] => none
  | b :: rest =>
    if b ≠ 0x27 then (readLiteral rest).map fun p => (b :: p.1, p.2)
    else match rest with
      | [] => some ([], [])
      | c :: rest =>
        if c = 0x27 then (readLiteral rest).map fun p => (0x27 :: p.1, p.2)
        else some ([], c :: rest)

/-- A byte other than a quote stands for itself. -/
theorem readLiteral_cons {b : UByte} (hb : b ≠ 0x27) (rest : List UByte) :
    readLiteral (b :: rest) = (readLiteral rest).map fun p => (b :: p.1, p.2) := by
  rw [readLiteral.eq_def]
  exact if_pos hb

/-- The payload bits of the first byte of a multi-byte character. -/
def utf8Trans1 (b : UByte) : UInt :=
  if b < 0xE0 then (b &&& 0x1F).toUInt32
  else if b < 0xF0 then (b &&& 0x0F).toUInt32
  else if b < 0xF8 then (b &&& 0x07).toUInt32
  else if b < 0xFC then (b &&& 0x03).toUInt32
  else if b < 0xFE then (b &&& 0x01).toUInt32
  else 0

/-- A multi-byte character is never an ASCII character, a surrogate or a noncharacter. -/
def legalChar (c : UInt) : UInt :=
  if c < 0x80 ∨ c &&& 0xFFFFF800 = 0xD800 ∨ c &&& 0xFFFFFFFE = 0xFFFE then 0xFFFD else c

/-- Decode characters. Inside a multi-byte character the value read so far is pending. -/
def readUtf8 : Option UInt → List UByte → List UInt
  | none, [] => []
  | some c, [] => [legalChar c]
  | none, b :: rest =>
    if b ≥ 0xC0 then readUtf8 (some (utf8Trans1 b)) rest else b.toUInt32 :: readUtf8 none rest
  | some c, b :: rest =>
    if b &&& 0xC0 = 0x80 then readUtf8 (some (c <<< 6 + (b &&& 0x3F).toUInt32)) rest
    else legalChar c ::
      if b ≥ 0xC0 then readUtf8 (some (utf8Trans1 b)) rest else b.toUInt32 :: readUtf8 none rest

theorem readUtf8_first {b : UByte} (hb : b ≥ 0xC0) (rest : List UByte) :
    readUtf8 none (b :: rest) = readUtf8 (some (utf8Trans1 b)) rest := by
  rw [readUtf8, if_pos hb]

theorem readUtf8_single {b : UByte} (hb : ¬b ≥ 0xC0) (rest : List UByte) :
    readUtf8 none (b :: rest) = b.toUInt32 :: readUtf8 none rest := by
  rw [readUtf8, if_neg hb]

theorem readUtf8_continue {b : UByte} (hb : b &&& 0xC0 = 0x80) (c : UInt) (rest : List UByte) :
    readUtf8 (some c) (b :: rest) =
      readUtf8 (some (c <<< 6 + (b &&& 0x3F).toUInt32)) rest := by
  rw [readUtf8, if_pos hb]

/-- Any other byte completes the pending character. -/
theorem readUtf8_complete {b : UByte} (hb : ¬b &&& 0xC0 = 0x80) (c : UInt) (rest : List UByte) :
    readUtf8 (some c) (b :: rest) = legalChar c :: readUtf8 none (b :: rest) := by
  rw [readUtf8, readUtf8, if_neg hb]

/-- LIKE ignores the case of ASCII letters only. -/
def toLower (c : UInt) : UInt := if 0x41 ≤ c ∧ c ≤ 0x5A then c + 0x20 else c

/-- The wildcards of LIKE are the percent sign and the underscore. -/
def likeInfo : Like.Wildcards UInt := ⟨0x25, 0x5F, toLower⟩

/-- Whether a key matches a pattern. -/
def likeFunc (pattern key : List UByte) : Bool :=
  Like.accepts likeInfo (readUtf8 none (cString pattern)) (readUtf8 none (cString key))

/-- The longest pattern LIKE takes. -/
def maxLikePatternLength : ℕ := 50000

/-- The keys of the users table. Text with a NUL inside has no defined comparison. -/
structure UsersTable where
  keys : List (List UByte)
  noNul : ∀ key ∈ keys, (0 : UByte) ∉ key

/-- What running a text comes to: whether it succeeded, and the number of columns of each row
the callback was called with. -/
structure SqlResult where
  ok : Bool
  rows : List ℕ
  deriving DecidableEq, Repr

def checkUserCallback (_ : Bool) (argc : ℕ) : Bool := decide (argc > 0)

namespace SQLiteDatabase

/-- The query up to and including the opening quote of the literal. -/
def selectText : List UByte := "SELECT * FROM users WHERE key LIKE '".toUTF8.toList

def checkUser (exec : List UByte → SqlResult) (user : List UByte) : Bool :=
  let sql := selectText ++ user ++ [0x27]
  let res := exec (cString sql)
  let b := res.rows.foldl checkUserCallback false
  if res.ok then b else false

end SQLiteDatabase

/-- The engine runs a query whose literal ends the text as SELECT and LIKE are documented. -/
structure RunsSelect (columns : ℕ) (exec : UsersTable → List UByte → SqlResult) : Prop where
  columns_pos : 0 < columns
  select : ∀ table literal pattern, (0 : UByte) ∉ literal →
    readLiteral literal = some (pattern, []) → pattern.length ≤ maxLikePatternLength →
    exec table (SQLiteDatabase.selectText ++ literal) =
      ⟨true, (table.keys.filter (likeFunc pattern)).map fun _ => columns⟩

/-- The text of the query is the expected one with the user as its literal. -/
def KeepsMeaning (user : List UByte) : Prop :=
  readLiteral (cString (user ++ [0x27])) = some (user, [])

/-- A byte that stands for itself only: ASCII, no letter, no wildcard, no quote and no NUL. -/
def PlainByte (b : UByte) : Prop :=
  b < 0x80 ∧ b ≠ 0 ∧ b ≠ 0x27 ∧ b ≠ 0x25 ∧ b ≠ 0x5F ∧
    ¬(0x41 ≤ b ∧ b ≤ 0x5A) ∧ ¬(0x61 ≤ b ∧ b ≤ 0x7A)

instance (b : UByte) : Decidable (PlainByte b) := inferInstanceAs (Decidable (_ ∧ _))

end QVPN

import QVPN.Lib.Components
import QVPN.Lib.Memory
import QVPN.Structures.Types

/-!
# HTTP messages

The end of the header is searched by three nested loops over the positions of the message, the
delimiters and their characters. The value of a header field is searched by its name, in either case,
and cut out of the message. Positions are narrowed to `int` and widened again, and the bounds of the
loops and of the pieces are unsigned.
-/

namespace QVPN

open Components Memory

namespace HttpTools

def headerDelimiterMinSize : ℤ := 2

/-- CR LF CR LF, LF LF, CR CR and CR LF LF. -/
def httpHeaderEnds : List (List UByte) := [[13, 10, 13, 10], [10, 10], [13, 13], [13, 10, 10]]

/-- The loop over the characters of a delimiter. Each of them is compared with the same byte of the
message. -/
def acceptDelimiter (mem : List UByte) (i : ℕ) : List UByte → Except Fault Bool
  | [] => .ok true
  | c :: delim => do
    let b ← readAt mem i
    if c ≠ b then return false else acceptDelimiter mem i delim

/-- The loop over the delimiters. Each of them starts by accepting again. -/
def acceptHeaderEnd (mem : List UByte) (i : ℕ) : List (List UByte) → Bool → Except Fault Bool
  | [], accept => .ok accept
  | delim :: delims, _ => do
    let accept ← acceptDelimiter mem i delim
    acceptHeaderEnd mem i delims accept

/-- The loop over the positions, for `count` more iterations from `i` on. -/
def headerEndLoop (mem : List UByte) : ℕ → ℕ → Int32 → Except Fault Int32
  | 0, _, pos => .ok pos
  | count + 1, i, pos => do
    let accept ← acceptHeaderEnd mem i httpHeaderEnds false
    headerEndLoop mem count (i + 1) (if accept then Int32.ofNat i else pos)

/-- The number of iterations is the distance from the smallest delimiter, as an unsigned integer. -/
def findHttpHeaderEnd (mem : List UByte) : Except Fault Int32 :=
  headerEndLoop mem (((mem.length : ℤ) - headerDelimiterMinSize) % 2 ^ 64).toNat 0 0

/-- The range in front of the position that was found. -/
def headerBytes (mem : List UByte) : Except Fault (List UByte) := do
  let pos ← findHttpHeaderEnd mem
  slice mem 0 pos.toInt

/-- The range from the position that was found on. -/
def bodyBytes (mem : List UByte) : Except Fault (List UByte) := do
  let pos ← findHttpHeaderEnd mem
  slice mem pos.toInt mem.length

end HttpTools

/-- A request in place. Its size has 32 bits. -/
structure Http1PacketRequestView where
  message : List UByte
  size_lt : message.length < 2 ^ 32

namespace Http1PacketRequestView

def getHttpRequestHeaderBytes (v : Http1PacketRequestView) : Except Fault (List UByte) :=
  HttpTools.headerBytes v.message

def getHttpRequestBodyBytes (v : Http1PacketRequestView) : Except Fault (List UByte) :=
  HttpTools.bodyBytes v.message

end Http1PacketRequestView

/-- A response by value. -/
structure Http1PacketResponseLittleEndian where
  data : List UByte
  deriving DecidableEq, Repr

namespace Http1PacketResponseLittleEndian

def getHttpResponseHeaderBytes (p : Http1PacketResponseLittleEndian) : Except Fault (List UByte) :=
  HttpTools.headerBytes p.data

/-- The body starts where the header is long, and has the size of what is behind the header. -/
def getHttpResponseBody (p : Http1PacketResponseLittleEndian) : Except Fault (List UByte) := do
  let header ← p.getHttpResponseHeaderBytes
  let start := header.length
  let size := p.data.length - header.length
  slice p.data start (start + size)

end Http1PacketResponseLittleEndian

/-- A view of characters. No text has more of them than a signed distance counts. -/
structure StringView where
  chars : List UByte
  size_lt : chars.length < 2 ^ 63

/-- What cutting out a piece can throw. -/
inductive SubstrError where
  | outOfRange
  deriving DecidableEq, Repr

namespace StringView

/-- The first place of a text at or behind a position; `none` stands for `npos`. -/
def find (s : StringView) (delim : List UByte) (pos : ℕ) : Option ℕ :=
  if pos ≤ s.chars.length then (Components.find delim (s.chars.drop pos)).map (· + pos) else none

/-- The piece from a position on, of at most `count` characters; `none` stands for `npos`. -/
def substr (s : StringView) (pos : ℕ) (count : Option ℕ) : Except SubstrError (List UByte) :=
  if pos ≤ s.chars.length then
    match count with
    | none => .ok (s.chars.drop pos)
    | some count => .ok ((s.chars.drop pos).take count)
  else .error .outOfRange

end StringView

namespace HttpTools

variable (tolower : UByte → UByte)

/-- The case folding of the locale that a program starts with. -/
def asciiLower (c : UByte) : UByte := if 65 ≤ c ∧ c ≤ 90 then c + 32 else c

/-- The first place at which every character equals that of the template but for its case. -/
def occurrence (source templ : List UByte) : Option ℕ :=
  Components.find (templ.map tolower) (source.map tolower)

/-- The place of a template, or the size of the source, narrowed to an `int`. -/
def caseFreeSearch (source templ : StringView) : Int32 :=
  Int32.ofNat ((occurrence tolower source.chars templ.chars).getD source.chars.length)

/-- The piece behind a name, with the position of the next delimiter as the number of its
characters. -/
def getHttpHeaderPiece (delim : List UByte) (httpData headerName : StringView) :
    Except SubstrError (List UByte) :=
  let start := (caseFreeSearch tolower httpData headerName).toInt
  let lineEnd := httpData.find delim (start % 2 ^ 64).toNat
  httpData.substr ((start + headerName.chars.length) % 2 ^ 64).toNat lineEnd

/-- The line of a header field ends at CR LF. -/
def getHttpHeaderLine : StringView → StringView → Except SubstrError (List UByte) :=
  getHttpHeaderPiece tolower [13, 10]

/-- A block ends at a space. -/
def getHttpHeaderBlock : StringView → StringView → Except SubstrError (List UByte) :=
  getHttpHeaderPiece tolower [32]

end HttpTools

end QVPN

import QVPN.Driver.Client
import QVPN.Lib.Decimal

/-!
# The whitelist

A client hides behind hosts that a censor lets pass. The hosts stand in files, each before a number
that gives its priority; words and numbers are read one after the other until one of them is
missing. For a hello, a host of the first file is drawn at random, and its priority plays no role.
-/

namespace QVPN

open Memory

structure QVPNWhitelistElement where
  host : List UByte
  priority : ℤ
  deriving DecidableEq, Repr

structure QVPNWhitelist where
  whitelist : List QVPNWhitelistElement
  deriving DecidableEq, Repr

/-- A byte of a text as a character. -/
def character (b : UByte) : Char := Char.ofNat b.toNat

def isSpace (b : UByte) : Bool := Decimal.isSpace (character b)

/-- The next word of a text, and what stands behind it. -/
def extractWord (text : List UByte) : Option (List UByte × List UByte) :=
  let text := text.dropWhile isSpace
  let word := text.takeWhile fun b => !isSpace b
  if word = [] then none else some (word, text.dropWhile fun b => !isSpace b)

/-- What stands behind the number that a text begins with. -/
def behindInt (text : List UByte) : List UByte :=
  let signed := text.dropWhile isSpace
  let digits := if signed.head?.any (fun b => b = 43 || b = 45) then signed.tail else signed
  digits.dropWhile fun b => (character b).isDigit

/-- The next number of a text, and what stands behind it. -/
def extractInt (text : List UByte) : Option (ℤ × List UByte) :=
  match Decimal.stoi (text.map character) with
  | .ok number => some (number, behindInt text)
  | .error _ => none

theorem extractWord_length {text word rest : List UByte}
    (h : extractWord text = some (word, rest)) : rest.length < text.length := by
  rw [extractWord] at h
  by_cases hword : (text.dropWhile isSpace).takeWhile (fun b => !isSpace b) = []
  · rw [if_pos hword] at h
    cases h
  · rw [if_neg hword] at h
    cases h
    have hparts := congrArg List.length
      (List.takeWhile_append_dropWhile (p := fun b => !isSpace b) (l := text.dropWhile isSpace))
    have hsome := List.length_pos_of_ne_nil hword
    have hblank := (List.dropWhile_suffix (l := text) isSpace).length_le
    rw [List.length_append] at hparts
    omega

theorem behindInt_suffix (text : List UByte) : behindInt text <:+ text := by
  have hblank := List.dropWhile_suffix (l := text) isSpace
  rw [behindInt]
  apply (List.dropWhile_suffix _).trans
  split
  · exact (List.tail_suffix _).trans hblank
  · exact hblank

theorem extractInt_suffix {text rest : List UByte} {number : ℤ}
    (h : extractInt text = some (number, rest)) : rest <:+ text := by
  rw [extractInt] at h
  cases hnumber : Decimal.stoi (text.map character) with
  | error e =>
    rw [hnumber] at h
    cases h
  | ok n =>
    rw [hnumber] at h
    cases h
    exact behindInt_suffix text

namespace QVPNWhitelist

/-- The elements of a text: as long as there are a word and a number. -/
def parseElements (text : List UByte) : List QVPNWhitelistElement :=
  match _hword : extractWord text with
  | none => []
  | some (host, rest) =>
    match _hnumber : extractInt rest with
    | none => []
    | some (priority, later) => ⟨host, priority⟩ :: parseElements later
termination_by text.length
decreasing_by
  exact (extractInt_suffix _hnumber).length_le.trans_lt (extractWord_length _hword)

/-- A file that cannot be opened leaves the whitelist empty. -/
def parseWhitelist (file : Option (List UByte)) : QVPNWhitelist :=
  ⟨(file.map parseElements).getD []⟩

/-- The host at an index that was drawn; an empty whitelist has no index to draw. -/
def getRandomHost (w : QVPNWhitelist) (drawn : ℕ) : Except Fault (List UByte) := do
  let element ← readAt w.whitelist drawn
  return element.host

end QVPNWhitelist

/-- The settings' whitelists; the client asks for an element of the first. -/
def getWhitelistElement (whitelists : List QVPNWhitelist) (whitelist drawn : ℕ) :
    Except Fault (List UByte) := do
  let w ← readAt whitelists whitelist
  w.getRandomHost drawn

/-- The host of an announcement comes from the first of the whitelists' files. -/
def HelloOutcome.Drawn (files : List (Option (List UByte))) (hello : HelloOutcome) : Prop :=
  ∃ drawn, getWhitelistElement (files.map QVPNWhitelist.parseWhitelist) 0 drawn = .ok hello.host

end QVPN

import QVPN.Structures.Record

/-!
# Receiving whole records

A stream socket returns buffers that need not end where records do. Received bytes are kept
in one vector, and a table of separators marks the objects found in it. The first buffer is
parsed on its own; when data is still missing, the next buffers are appended and the last
object is parsed again.

The continuation reads through raw pointers into the vector. A pointer behind the vector is
harmless as long as nothing is read there, so only the read is a fault.
-/

namespace QVPN

open BigEndian Memory

inductive SafeReceiveSignal where
  | SFR_FULL_DATA
  | SFR_WAIT_DATA
  | SFR_NO_DATA
  | SFR_ERROR
  deriving DecidableEq, Repr

/-- The bytes received so far and the objects found in them. -/
structure SafeReceiveData where
  separators : List (ℕ × ℕ)
  data : List UByte
  deriving DecidableEq, Repr

namespace SafeReceiveData

def empty : SafeReceiveData := ⟨[], []⟩

/-- The separators with at least one object, to be extended. -/
def getLastObject (s : SafeReceiveData) : List (ℕ × ℕ) :=
  if s.separators.length = 0 then s.separators ++ [(0, 0)] else s.separators

/-- Append the bytes of an object. -/
def addObject (s : SafeReceiveData) (object : List UByte) : SafeReceiveData where
  separators := s.separators ++ [(s.data.length, s.data.length + object.length)]
  data := s.data ++ object

/-- Parse the first buffer: at most one object and a tail. -/
def parseData (s : SafeReceiveData) (buffer : List UByte) :
    Except Fault (SafeReceiveSignal × SafeReceiveData) := do
  let res ← TLS13Record.bytesParse buffer buffer.length
  match res.bpSignal with
  | .BP_FULL_OBJECT => do
    let object ← slice buffer res.start res.stop
    return (.SFR_FULL_DATA, s.addObject object)
  | .BP_NOT_FULL_OBJECT => do
    let object ← slice buffer res.start res.realEnd
    return (.SFR_WAIT_DATA, s.addObject object)
  | .BP_FULL_OBJECT_AND_TAIL => do
    let object ← slice buffer res.start res.stop
    let tail ← slice buffer res.stop res.realEnd
    return (.SFR_WAIT_DATA, (s.addObject object).addObject tail)
  | _ => return (.SFR_ERROR, s)

/-- The loop of the continuation over `[start, fin)`; `last` stays the object it began with. -/
def parseLoop (last : ℕ) : ℕ → SafeReceiveData → ℕ → ℕ →
    Except Fault (SafeReceiveSignal × SafeReceiveData)
  | 0, _, _, _ => .error .noReturn
  | fuel + 1, s, start, fin => do
    let res ← TLS13Record.bytesParse (s.data.drop start) (fin - start)
    match res.bpSignal with
    | .BP_FULL_OBJECT => return (.SFR_FULL_DATA, s)
    | .BP_NOT_FULL_OBJECT => return (.SFR_WAIT_DATA, s)
    | .BP_FULL_OBJECT_AND_TAIL => do
      let size := res.stop - res.start
      let tailSize := res.realEnd - res.stop
      let (first, second) ← readAt s.separators last
      let tailStart := second
      let separators := s.separators.set last (first, first + size) ++
        [(tailStart, tailStart + tailSize)]
      parseLoop last fuel ⟨separators, s.data⟩ tailStart (tailStart + tailSize)
    | _ => return (.SFR_ERROR, s)

/-- Append a buffer to the last object and parse it again. -/
def addDataAndParse (s : SafeReceiveData) (buffer : List UByte) :
    Except Fault (SafeReceiveSignal × SafeReceiveData) := do
  let separators := s.getLastObject
  let last := separators.length - 1
  let (start, _) ← readAt separators last
  let data := s.data ++ buffer
  let fin := data.length
  parseLoop last (fin + 2) ⟨separators.set last (start, fin), data⟩ start fin

def addObjectsAndValidate (s : SafeReceiveData) (prevSignal : SafeReceiveSignal)
    (buffer : List UByte) : Except Fault (SafeReceiveSignal × SafeReceiveData) :=
  if prevSignal = .SFR_WAIT_DATA then s.addDataAndParse buffer else s.parseData buffer

def getObjectBytes (s : SafeReceiveData) (i : ℕ) : Except Fault (List UByte) := do
  let (b, e) ← readAt s.separators i
  slice s.data b e

def getObjectsNum (s : SafeReceiveData) : ℕ := s.separators.length

/-- All objects, as a reader of the result enumerates them. -/
def objects (s : SafeReceiveData) : Except Fault (List (List UByte)) :=
  (List.range s.getObjectsNum).mapM s.getObjectBytes

/-- Feed received buffers until the data is full. The result is the last signal, the data and
the buffers that were not fed. -/
def safeRecv (signal : SafeReceiveSignal) (s : SafeReceiveData) : List (List UByte) →
    Except Fault (SafeReceiveSignal × SafeReceiveData × List (List UByte))
  | [] => .ok (signal, s, [])
  | buffer :: buffers =>
    if signal = .SFR_FULL_DATA then .ok (signal, s, buffer :: buffers)
    else do
      let (signal, s) ← s.addObjectsAndValidate signal buffer
      safeRecv signal s buffers

/-- Behind the vector only a tail too short for a header passes the parser. -/
theorem bytesParse_behind (data : List UByte) (size : ℕ) :
    TLS13Record.bytesParse (data.drop data.length) size =
      if size < 5 then .ok ⟨0, size, .BP_NOT_FULL_OBJECT, size⟩ else .error .outOfBounds := by
  rw [List.drop_length, TLS13Record.bytesParse]
  rfl

/-- The continuation extends the last object, and its loop ends after at most two rounds: the
second round starts behind the received bytes. -/
theorem addDataAndParse_eq (init : List (ℕ × ℕ)) (a z : ℕ) (data buffer : List UByte) :
    addDataAndParse ⟨init ++ [(a, z)], data⟩ buffer = (do
      let fin := (data ++ buffer).length
      let res ← TLS13Record.bytesParse ((data ++ buffer).drop a) (fin - a)
      match res.bpSignal with
      | .BP_FULL_OBJECT => return (.SFR_FULL_DATA, ⟨init ++ [(a, fin)], data ++ buffer⟩)
      | .BP_NOT_FULL_OBJECT => return (.SFR_WAIT_DATA, ⟨init ++ [(a, fin)], data ++ buffer⟩)
      | .BP_FULL_OBJECT_AND_TAIL =>
        if fin - a - res.stop < 5 then
          return (.SFR_WAIT_DATA, ⟨init ++ [(a, a + res.stop)] ++
            [(fin, fin + (fin - a - res.stop))], data ++ buffer⟩)
        else .error .outOfBounds
      | _ => return (.SFR_ERROR, ⟨init ++ [(a, fin)], data ++ buffer⟩)) := by
  have hlast : getLastObject ⟨init ++ [(a, z)], data⟩ = init ++ [(a, z)] :=
    if_neg (by simp)
  have hread (p : ℕ × ℕ) : readAt (init ++ [p]) init.length = .ok p := readAt_append_right init [p] 0
  have hset (p q : ℕ × ℕ) : (init ++ [p]).set init.length q = init ++ [q] := by simp
  rw [addDataAndParse, hlast, show (init ++ [(a, z)]).length - 1 = init.length by simp]
  dsimp only
  rw [hread, ok_bind, hset, parseLoop]
  dsimp only
  cases hres : TLS13Record.bytesParse ((data ++ buffer).drop a) ((data ++ buffer).length - a) with
  | error e => rfl
  | ok res =>
    obtain ⟨stop, signal, rfl, hsignal⟩ := TLS13Record.bytesParse_cases hres
    rw [ok_bind, ok_bind]
    rcases hsignal with ⟨rfl, -⟩ | rfl | ⟨rfl, -⟩
    · rfl
    · rfl
    · dsimp only
      rw [hread, ok_bind, hset, parseLoop]
      dsimp only
      rw [Nat.add_sub_cancel_left, bytesParse_behind, Nat.sub_zero]
      split <;> rfl

end SafeReceiveData

end QVPN

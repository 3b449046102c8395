import HoconRender.Text

/-
UTF-8 as bytes. A fault names the bytes of the first sequence that is not well formed and why it
is not.
-/
namespace HoconRender.Text

inductive Utf8Problem where
  | startByte | continuation | endOfData
deriving DecidableEq, Repr

structure Utf8Fault where
  problem : Utf8Problem
  start : Nat
  stop : Nat
  first : Nat
deriving DecidableEq, Repr

def isContinuation (b : Nat) : Bool := 0x80 ≤ b && b < 0xC0

/-- The bytes that may follow a first byte of a sequence: after four first bytes the second byte
is held to a part of the continuation bytes. -/
def maySecond (first second : Nat) : Bool :=
  isContinuation second &&
    (if first = 0xE0 then 0xA0 ≤ second
    else if first = 0xED then second < 0xA0
    else if first = 0xF0 then 0x90 ≤ second
    else if first = 0xF4 then second < 0x90
    else true)

def sequenceLength? (first : Nat) : Option Nat :=
  if first < 0x80 then some 1
  else if first < 0xC2 then none
  else if first < 0xE0 then some 2
  else if first < 0xF0 then some 3
  else if first < 0xF5 then some 4
  else none

def continued (first : Nat) : (wanted : Nat) → List Nat → Nat
  | 0, _ => 0
  | _, [] => 0
  | wanted + 1, b :: rest =>
    if maySecond first b then 1 + (rest.take wanted |>.takeWhile isContinuation).length else 0

def sequenceValue (length first : Nat) (rest : List Nat) : Nat :=
  let lead := if length = 1 then first else first % Nat.pow 2 (7 - length)
  rest.foldl (fun n b => n * 64 + b % 64) lead

def decodeFrom (offset : Nat) : List Nat → Except Utf8Fault Text
  | [] => .ok []
  | first :: rest =>
    match sequenceLength? first with
    | none => .error ⟨.startByte, offset, offset + 1, first⟩
    | some length =>
      let behind := continued first (length - 1) rest
      if behind = length - 1 then
        (decodeFrom (offset + length) (rest.drop behind)).map
          (sequenceValue length first (rest.take behind) :: ·)
      else if rest.length = behind then
        .error ⟨.endOfData, offset, offset + 1 + behind, first⟩
      else .error ⟨.continuation, offset, offset + 1 + behind, first⟩
termination_by bytes => bytes.length
decreasing_by simp only [List.length_drop, List.length_cons]; omega

def decodeUtf8 (bytes : List Nat) : Except Utf8Fault Text := decodeFrom 0 bytes

def encodePoint (c : Nat) : List Nat :=
  if c < 0x80 then [c]
  else if c < 0x800 then [0xC0 + c / 64, 0x80 + c % 64]
  else if c < 0x10000 then [0xE0 + c / 4096, 0x80 + c / 64 % 64, 0x80 + c % 64]
  else [0xF0 + c / 262144, 0x80 + c / 4096 % 64, 0x80 + c / 64 % 64, 0x80 + c % 64]

def encodeUtf8 (t : Text) : List Nat := t.flatMap encodePoint

def unixLines : Text → Text
  | [] => []
  | 0x0D :: 0x0A :: rest => 0x0A :: unixLines rest
  | c :: rest => (if c = 0x0D then 0x0A else c) :: unixLines rest

def Utf8Problem.message : Utf8Problem → Text
  | .startByte => "invalid start byte"
  | .continuation => "invalid continuation byte"
  | .endOfData => "unexpected end of data"

def Utf8Fault.message (fault : Utf8Fault) : Text :=
  let place := if fault.stop = fault.start + 1 then
      ofString "byte 0x" ++ hexadecimal 2 fault.first ++ ofString " in position "
        ++ natural fault.start
    else ofString "bytes in position " ++ natural fault.start ++ ofString "-"
      ++ natural (fault.stop - 1)
  ofString "'utf-8' codec can't decode " ++ place ++ ofString ": " ++ fault.problem.message

end HoconRender.Text

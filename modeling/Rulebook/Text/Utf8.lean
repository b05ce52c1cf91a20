import Rulebook.Text.Lines

/-!
# Strict UTF-8

Decoding refuses overlong forms, surrogates and everything past U+10FFFF, and says which bytes
are to blame: the start of a sequence up to the first byte that cannot continue it.
-/

namespace Rulebook.Utf8

inductive Reason where
  | invalidStart
  | invalidContinuation
  | unexpectedEnd
  deriving DecidableEq, Repr

/-- The bytes `position`, … `position + extra` cannot be decoded; `first` is the first of them. -/
structure Error where
  position : Nat
  first : UInt8
  extra : Nat
  reason : Reason
  deriving DecidableEq, Repr

def isContinuation (b : UInt8) : Bool := 0x80 ≤ b && b < 0xC0

/-- The second bytes that the lead byte `lead` of a longer sequence allows. -/
def isSecond (lead b : UInt8) : Bool :=
  isContinuation b &&
    (if lead = 0xE0 then 0xA0 ≤ b
     else if lead = 0xED then b < 0xA0
     else if lead = 0xF0 then 0x90 ≤ b
     else if lead = 0xF4 then b < 0x90
     else true)

/-- The six payload bits of a continuation byte. -/
def payload (b : UInt8) : Nat := b.toNat % 64

/-- The character whose encoding starts with `lead`, and how many bytes of `rest` it takes. -/
def sequence (lead : UInt8) (rest : List UInt8) : Except (Nat × Reason) (Char × Nat) :=
  if lead < 0x80 then .ok (Char.ofNat lead.toNat, 0)
  else if lead < 0xC2 || 0xF5 ≤ lead then .error (0, .invalidStart)
  else match rest with
    | [] => .error (0, .unexpectedEnd)
    | second :: rest =>
      if !isSecond lead second then .error (0, .invalidContinuation)
      else if lead < 0xE0 then
        .ok (Char.ofNat ((lead.toNat - 0xC0) * 64 + payload second), 1)
      else match rest with
        | [] => .error (1, .unexpectedEnd)
        | third :: rest =>
          if !isContinuation third then .error (1, .invalidContinuation)
          else if lead < 0xF0 then
            .ok (Char.ofNat (((lead.toNat - 0xE0) * 64 + payload second) * 64 + payload third), 2)
          else match rest with
            | [] => .error (2, .unexpectedEnd)
            | fourth :: _ =>
              if !isContinuation fourth then .error (2, .invalidContinuation)
              else .ok (Char.ofNat ((((lead.toNat - 0xF0) * 64 + payload second) * 64 +
                payload third) * 64 + payload fourth), 3)

/-- Decodes from `position` on; `done` holds what is decoded already, last character first. -/
def decodeFrom (position : Nat) (done : Text) (bytes : List UInt8) : Except Error Text :=
  match bytes with
  | [] => .ok done.reverse
  | lead :: rest =>
    match sequence lead rest with
    | .ok (c, extra) => decodeFrom (position + extra + 1) (c :: done) (rest.drop extra)
    | .error (extra, reason) => .error ⟨position, lead, extra, reason⟩
termination_by bytes.length
decreasing_by simp only [List.length_drop, List.length_cons]; omega

def decode (bytes : List UInt8) : Except Error Text := decodeFrom 0 [] bytes

/-- Decodes `bytes` in pieces of `size`. A sequence that a piece cuts off waits for the next one,
and positions count from the start of the piece with what waited before it. -/
def decodePieces (size : Nat) (fuel : Nat) (waiting bytes : List UInt8) : Except Error Text :=
  match fuel with
  | 0 => .ok []
  | fuel + 1 =>
    if bytes.isEmpty then decode waiting
    else
      let piece := waiting ++ bytes.take size
      match decode piece with
      | .ok s => (s ++ ·) <$> decodePieces size fuel [] (bytes.drop size)
      | .error e =>
        if e.reason = .unexpectedEnd then do
          let s ← decode (piece.take e.position)
          (s ++ ·) <$> decodePieces size fuel (piece.drop e.position) (bytes.drop size)
        else .error e

/-- A stream is decoded in pieces of 8192 bytes. -/
def decodeStream (bytes : List UInt8) : Except Error Text :=
  decodePieces 8192 (bytes.length + 1) [] bytes

def Reason.text : Reason → String
  | .invalidStart => "invalid start byte"
  | .invalidContinuation => "invalid continuation byte"
  | .unexpectedEnd => "unexpected end of data"

def Error.message (e : Error) : String :=
  let digits := String.ofList (Nat.toDigits 16 e.first.toNat)
  if e.extra = 0 then
    s!"'utf-8' codec can't decode byte 0x{digits} in position {e.position}: {e.reason.text}"
  else
    s!"'utf-8' codec can't decode bytes in position {e.position}-{e.position + e.extra}: " ++
      e.reason.text

end Rulebook.Utf8

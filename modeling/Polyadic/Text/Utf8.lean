/-!
# Reading bytes as text

Bytes that are not UTF-8 are read with one replacement character for each maximal run that starts
like a character and breaks off.
-/

namespace Polyadic.Text

/-- The character that stands for unreadable bytes. -/
def replacement : Char := '\uFFFD'

/-- Whether a byte may follow the first byte of a character. -/
def isContinuation (b : UInt8) : Bool :=
  0x80 ≤ b && b ≤ 0xBF

/-- Whether `second` may follow `first` in a character of three bytes. -/
def startsThree (first second : UInt8) : Bool :=
  if first == 0xE0 then 0xA0 ≤ second && second ≤ 0xBF
  else if first == 0xED then 0x80 ≤ second && second ≤ 0x9F
  else 0xE1 ≤ first && first ≤ 0xEF && isContinuation second

/-- Whether `second` may follow `first` in a character of four bytes. -/
def startsFour (first second : UInt8) : Bool :=
  if first == 0xF0 then 0x90 ≤ second && second ≤ 0xBF
  else if first == 0xF4 then 0x80 ≤ second && second ≤ 0x8F
  else 0xF1 ≤ first && first ≤ 0xF3 && isContinuation second

/-- The low six bits of a continuation byte. -/
def payload (b : UInt8) : Nat :=
  b.toNat % 64

/-- Reads bytes as text, with a replacement character for each run that is not UTF-8. -/
def decodeLossy : List UInt8 → List Char
  | [] => []
  | a :: rest =>
    if a < 0x80 then Char.ofNat a.toNat :: decodeLossy rest
    else
      match rest with
      | [] => [replacement]
      | b :: rest' =>
        if 0xC2 ≤ a && a ≤ 0xDF && isContinuation b then
          Char.ofNat (a.toNat % 32 * 64 + payload b) :: decodeLossy rest'
        else if startsThree a b then
          match rest' with
          | [] => [replacement]
          | c :: rest'' =>
            if isContinuation c then
              Char.ofNat ((a.toNat % 16 * 64 + payload b) * 64 + payload c) :: decodeLossy rest''
            else replacement :: decodeLossy (c :: rest'')
        else if startsFour a b then
          match rest' with
          | [] => [replacement]
          | c :: rest'' =>
            if isContinuation c then
              match rest'' with
              | [] => [replacement]
              | d :: rest''' =>
                if isContinuation d then
                  Char.ofNat (((a.toNat % 8 * 64 + payload b) * 64 + payload c) * 64 + payload d) ::
                    decodeLossy rest'''
                else replacement :: decodeLossy (d :: rest''')
            else replacement :: decodeLossy (c :: rest'')
        else replacement :: decodeLossy (b :: rest')
termination_by bytes => bytes.length

/-- The bytes as text; what is not UTF-8 is replaced. -/
def ofBytesLossy (bytes : ByteArray) : String :=
  match String.fromUTF8? bytes with
  | some text => text
  | none => String.ofList (decodeLossy bytes.toList)

end Polyadic.Text

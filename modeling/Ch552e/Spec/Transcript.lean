import Ch552e.Lib.Text
import Ch552e.Ref.MainLoop

/-!
# The text of the SETUP log

What a terminal on the serial line is to see: a greeting, and one line for each
SETUP packet, its bytes in hexadecimal, the words high byte first.
`readTranscript` is the way back, from any part of the text that a terminal may
have got so far to the packets it speaks of.
-/

namespace Ch552e.Spec

open Ch552e.Lib Ch552e.Lib.Text Ch552e.Ref

/-! ## Hexadecimal -/

def hexDigit (n : Nat) : UInt8 :=
  if n < 10 then UInt8.ofNat (0x30 + n) else UInt8.ofNat (0x41 + (n - 10))

def hexDigitValue (c : UInt8) : Option Nat :=
  if 0x30 ≤ c ∧ c ≤ 0x39 then some (c.toNat - 0x30)
  else if 0x41 ≤ c ∧ c ≤ 0x46 then some (c.toNat - 0x41 + 10)
  else none

def hexText (v : UInt8) : List UInt8 :=
  [hexDigit (v.toNat / 16), hexDigit (v.toNat % 16)]

def hexValue (bs : List UInt8) : Option UInt8 :=
  match bs with
  | [h, l] =>
      (hexDigitValue h).bind fun h =>
        (hexDigitValue l).map fun l => UInt8.ofNat (16 * h + l)
  | _ => none

theorem hexValue_hexText (v : UInt8) : hexValue (hexText v) = some v :=
  forall_byte (P := fun v => hexValue (hexText v) = some v) (by decide +kernel) v

theorem hexDigit_of_value {c : UInt8} {n : Nat} (h : hexDigitValue c = some n) :
    n < 16 ∧ hexDigit n = c := by
  have hall : ∀ c : UInt8, ∀ n, hexDigitValue c = some n →
      n < 16 ∧ hexDigit n = c := by
    intro c
    refine forall_byte (P := fun c => ∀ n, hexDigitValue c = some n →
      n < 16 ∧ hexDigit n = c) (fun b => ?_) c
    have hopt : ((hexDigitValue ⟨b⟩).all fun n =>
        decide (n < 16 ∧ hexDigit n = ⟨b⟩)) = true := by
      revert b
      decide +kernel
    intro n hn
    rw [hn] at hopt
    simpa using hopt
  exact hall c n h

theorem hexText_of_value (bs : List UInt8) (v : UInt8) (h : hexValue bs = some v) :
    hexText v = bs := by
  unfold hexValue at h
  split at h
  · next c d =>
      obtain ⟨a, ha, h⟩ := Option.bind_eq_some_iff.mp h
      obtain ⟨b, hb, rfl⟩ := Option.map_eq_some_iff.mp h
      obtain ⟨ha16, rfl⟩ := hexDigit_of_value ha
      obtain ⟨hb16, rfl⟩ := hexDigit_of_value hb
      have hval : (UInt8.ofNat (16 * a + b)).toNat = 16 * a + b := by
        rw [UInt8.toNat_ofNat']
        omega
      rw [hexText, hval, show (16 * a + b) / 16 = a by omega,
        show (16 * a + b) % 16 = b by omega]
  · exact absurd h (by simp)

def hexField : Field UInt8 UInt8 where
  width := 2
  encode := hexText
  decode := hexValue
  length_encode := fun _ => rfl
  decode_encode := hexValue_hexText
  encode_of_decode := hexText_of_value

/-! ## The transcript -/

def greeting : List UInt8 := ascii "Initialized.\r\n"

def setupLine : List (Piece UInt8) :=
  [.text (ascii "SETUP bmRequestType:0x"), .field,
    .text (ascii " bRequest:0x"), .field,
    .text (ascii " wValue:0x"), .field, .field,
    .text (ascii " wIndex:0x"), .field, .field,
    .text (ascii " wLength:0x"), .field, .field,
    .text (ascii "\r\n")]

/-- The values of a line, words high byte first. -/
def lineValues (x : UsbSetupFifoItem) : List UInt8 :=
  [x.bmRequestType, x.bRequest, highByte x.wValue, lowByte x.wValue,
    highByte x.wIndex, lowByte x.wIndex, highByte x.wLength, lowByte x.wLength]

def itemOfValues (vs : List UInt8) : Option UsbSetupFifoItem :=
  match vs with
  | [t, r, vh, vl, ih, il, lh, ll] =>
      some ⟨t, r, u16le vl vh, u16le il ih, u16le ll lh⟩
  | _ => none

def lineOf (x : UsbSetupFifoItem) : List UInt8 :=
  printLine hexField setupLine (lineValues x)

def transcript (xs : List UsbSetupFifoItem) : List UInt8 :=
  greeting ++ xs.flatMap lineOf

def setupLineLength : Nat := lineLength hexField setupLine

/-- The packets of the complete lines of a text. -/
def readTranscript (bs : List UInt8) : List UsbSetupFifoItem :=
  (readLines hexField setupLine bs.length (bs.drop greeting.length)).filterMap
    itemOfValues

theorem itemOfValues_lineValues (x : UsbSetupFifoItem) :
    itemOfValues (lineValues x) = some x := by
  obtain ⟨t, r, v, i, l⟩ := x
  simp only [lineValues, itemOfValues, u16le_low_high]

theorem transcript_append (xs ys : List UsbSetupFifoItem) :
    transcript (xs ++ ys) = transcript xs ++ ys.flatMap lineOf := by
  rw [transcript, transcript, List.flatMap_append, List.append_assoc]

theorem length_transcript (xs : List UsbSetupFifoItem) :
    (transcript xs).length = greeting.length + xs.length * setupLineLength := by
  have hline : ∀ x, (lineOf x).length = setupLineLength :=
    fun x => length_printLine hexField setupLine rfl
  rw [transcript, List.length_append]
  induction xs with
  | nil => rw [List.flatMap_nil, List.length_nil, List.length_nil, Nat.zero_mul]
  | cons x xs ih =>
      rw [List.flatMap_cons, List.length_append, hline, List.length_cons,
        Nat.succ_mul]
      omega

/-- The lines that are complete are read, whatever the text breaks off at. -/
theorem readTranscript_cut {bs : List UInt8} {xs : List UsbSetupFifoItem}
    (h : bs <+: transcript xs) :
    readTranscript bs =
      xs.take ((bs.length - greeting.length) / setupLineLength) := by
  have hrows : bs.drop greeting.length <+:
      (xs.map lineValues).flatMap (printLine hexField setupLine) := by
    have hdrop := h.drop greeting.length
    rw [transcript, List.drop_left] at hdrop
    rw [List.flatMap_map]
    exact hdrop
  have hread := readLines_cut hexField setupLine (n := bs.length)
    (by decide)
    (by
      intro vs hvs
      obtain ⟨x, _, rfl⟩ := List.mem_map.mp hvs
      rfl)
    hrows (by rw [List.length_drop]; omega)
  rw [readTranscript, hread, List.length_drop, ← List.map_take,
    List.filterMap_map]
  have hitem : itemOfValues ∘ lineValues = some :=
    funext itemOfValues_lineValues
  rw [hitem, List.filterMap_some]
  rfl

end Ch552e.Spec

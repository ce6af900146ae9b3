import Mathlib.Data.List.Basic
import Mathlib.Data.UInt

/-!
# The two lines of an I2C bus

A master as the levels it writes to SCL and SDA, one after the other, and a decoder that reads them: an edge of SDA while SCL is
high is a START or a STOP, every rise of SCL in a transfer samples a bit, and nine of them are a byte and its acknowledgement.
-/

namespace Lib

/-- A level written to one of the lines. -/
inductive Write where
  | scl (level : Bool)
  | sda (level : Bool)
  deriving DecidableEq, Repr

/-- What a decoder reports. -/
inductive Symbol where
  | start
  | byte (b : UInt8)
  | stop
  deriving DecidableEq, Repr

/-- A decoder: the levels of the lines, whether a transfer is under way, and the bits sampled since its last byte. -/
structure Decoder where
  scl : Bool
  sda : Bool
  active : Bool
  bits : List Bool
  deriving DecidableEq, Repr

/-- Both lines high and no transfer. -/
def Decoder.idle : Decoder := { scl := true, sda := true, active := false, bits := [] }

/-- In a transfer, with SCL low and some bits of the next byte. -/
def Decoder.ready (sda : Bool) (bits : List Bool) : Decoder := { scl := false, sda := sda, active := true, bits := bits }

/-- The number some bits stand for, the most significant first. -/
def byteOf (bits : List Bool) : UInt8 := UInt8.ofNat (bits.foldl (fun n b => 2 * n + b.toNat) 0)

/-- A write, as the decoder sees it. -/
def Decoder.step (d : Decoder) : Write → Option Symbol × Decoder
  | .scl level =>
    if level && !d.scl && d.active then
      if d.bits.length = 8 then (some (.byte (byteOf d.bits)), { d with scl := level, bits := [] })
      else (none, { d with scl := level, bits := d.bits ++ [d.sda] })
    else (none, { d with scl := level })
  | .sda level =>
    if d.scl && level != d.sda then
      (some (if level then .stop else .start), { d with sda := level, active := !level, bits := [] })
    else (none, { d with sda := level })

/-- What the decoder reports of some writes, and what it is left in. -/
def decode (d : Decoder) : List Write → List Symbol × Decoder
  | [] => ([], d)
  | w :: ws =>
    let (s, d) := d.step w
    let (ss, d) := decode d ws
    (s.toList ++ ss, d)

theorem decode_cons (d : Decoder) (w : Write) (ws : List Write) :
    decode d (w :: ws) = ((d.step w).1.toList ++ (decode (d.step w).2 ws).1, (decode (d.step w).2 ws).2) := rfl

theorem decode_append (d : Decoder) (ws vs : List Write) :
    decode d (ws ++ vs) = ((decode d ws).1 ++ (decode (decode d ws).2 vs).1, (decode (decode d ws).2 vs).2) := by
  induction ws generalizing d with
  | nil => rfl
  | cons w ws ih => rw [List.cons_append, decode_cons, decode_cons, ih, List.append_assoc]

/-- The chaining rule. -/
theorem decode_trans {d d' d'' : Decoder} {ws vs : List Write} {ss ts : List Symbol} (h : decode d ws = (ss, d'))
    (h' : decode d' vs = (ts, d'')) : decode d (ws ++ vs) = (ss ++ ts, d'') := by
  rw [decode_append, h, h']

/-! ## One byte -/

/-- One bit: SDA is set while SCL is low, and SCL goes up and down. -/
def clock (b : Bool) : List Write := [.sda b, .scl true, .scl false]

theorem decode_clock {bits : List Bool} (h : bits.length < 8) (sda b : Bool) :
    decode (Decoder.ready sda bits) (clock b) = ([], Decoder.ready b (bits ++ [b])) := by
  have h8 : bits.length ≠ 8 := by omega
  simp [clock, decode, Decoder.step, Decoder.ready, h8]

/-- Up to eight bits are collected. -/
theorem decode_clocks (bits bs : List Bool) (h : bits.length + bs.length ≤ 8) (sda : Bool) :
    decode (Decoder.ready sda bits) (bs.flatMap clock) = ([], Decoder.ready (bs.getLastD sda) (bits ++ bs)) := by
  induction bs generalizing bits sda with
  | nil => simp [decode]
  | cons b bs ih =>
    rw [List.length_cons] at h
    have htail := ih (bits ++ [b]) (by simp; omega) b
    rw [List.flatMap_cons, decode_trans (decode_clock (by omega) sda b) htail, List.getLastD_cons, List.append_assoc]
    rfl

/-- Eight bits and the clock of the acknowledgement are a byte. -/
theorem decode_byte {bs : List Bool} (h : bs.length = 8) (sda : Bool) :
    decode (Decoder.ready sda []) (bs.flatMap clock ++ clock true) = ([.byte (byteOf bs)], Decoder.ready true []) := by
  have hbits := decode_clocks [] bs (by simp [h]) sda
  refine decode_trans hbits ?_
  simp [clock, decode, Decoder.step, Decoder.ready, h]

/-! ## Whole transfers -/

/-- A START on an idle bus. -/
theorem decode_start : decode Decoder.idle [.sda true, .scl true, .sda false, .scl false] = ([.start], Decoder.ready false []) := rfl

/-- A STOP. The rise of SCL before it samples a bit, which is dropped. -/
theorem decode_stop (sda : Bool) : decode (Decoder.ready sda []) [.sda false, .scl true, .sda true] = ([.stop], Decoder.idle) := by
  simp [decode, Decoder.step, Decoder.ready, Decoder.idle]

/-- The bytes of each complete transfer; `bs` are those of the one under way. -/
def frames (bs : List UInt8) : List Symbol → List (List UInt8)
  | [] => []
  | .start :: ss => frames [] ss
  | .byte b :: ss => frames (bs ++ [b]) ss
  | .stop :: ss => bs :: frames [] ss

theorem frames_bytes (bs cs : List UInt8) (ss : List Symbol) :
    frames bs (cs.map .byte ++ ss) = frames (bs ++ cs) ss := by
  induction cs generalizing bs with
  | nil => rw [List.append_nil]; rfl
  | cons c cs ih =>
    rw [List.map_cons, List.cons_append, frames, ih, List.append_assoc]
    rfl

/-- A transfer from START to STOP. -/
theorem frames_transfer (bs cs : List UInt8) (ss : List Symbol) :
    frames bs (.start :: (cs.map .byte ++ .stop :: ss)) = cs :: frames [] ss := by
  rw [frames, frames_bytes]
  rfl

end Lib

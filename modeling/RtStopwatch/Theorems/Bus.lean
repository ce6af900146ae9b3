import RtStopwatch.Lemmas.Bus

/-!
# The bit-banged bus is faithful

The levels that the driver writes to the two lines, read by an I2C decoder, are exactly the bytes it was given, and so the panel
comes to hold the frame buffer (`i2c_path_faithful`).
-/

namespace RtStopwatch

open Lib

/-- The I2C path transmits faithfully. From an idle bus, for every address, command and block of data: `OLED_WriteCommand` and
`OLED_WriteData` are one START, the address, the control byte and the bytes, and one STOP, and leave the bus idle. For every content
of the frame buffer, whatever follows it in memory and whatever the panel holds, `OLED_Update` leaves the bus idle and the panel
holding the frame buffer. -/
theorem i2c_path_faithful (addr : UInt8) :
    (∀ command : UInt8, decode Decoder.idle (oledWriteCommand addr command) =
      ([.start, .byte addr, .byte 0x00, .byte command, .stop], Decoder.idle)) ∧
    (∀ (data : ℕ → UInt8) (count : UInt8), decode Decoder.idle (oledWriteData addr data count) =
      ([.start, .byte addr, .byte 0x40] ++ (List.range count.toNat).map (fun i => .byte (data i)) ++ [.stop], Decoder.idle)) ∧
    ∀ (buf : DisplayBuf) (beyond : ℕ → UInt8) (p : Panel),
      (decode Decoder.idle (oledUpdate.flatMap (BusCall.wave addr (buf.memory beyond)))).2 = Decoder.idle ∧
      (p.feed addr (oledUpdate.flatMap (BusCall.wave addr (buf.memory beyond)))).ram = buf := by
  refine ⟨?_, ?_, ?_⟩
  · intro command
    rw [oledWriteCommand_eq, decode_transfer]
    rfl
  · intro data count
    rw [oledWriteData_eq, decode_transfer]
    simp
  · intro buf beyond p
    exact ⟨(decode_waves addr (buf.memory beyond) oledUpdate).2, ram_after_oledUpdate p⟩

end RtStopwatch

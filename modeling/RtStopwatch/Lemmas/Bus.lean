import Mathlib.Data.List.GetD
import RtStopwatch.OledBus

/-!
# What the panel receives

The calls of the driver, decoded: each is one transfer (`decode_wave`), and a cursor followed by data within one page of the buffer
leaves exactly these bytes in the panel (`ram_after_rows`).
-/

namespace RtStopwatch

open Lib

/-! ## Words and indices -/

theorem uint8_forall {P : UInt8 → Prop} (h : ∀ n < 256, P (UInt8.ofNat n)) (b : UInt8) : P b := by
  have hb := h b.toNat b.toNat_lt
  rwa [UInt8.ofNat_toNat] at hb

theorem finOfNat_eq {n k : ℕ} [NeZero n] {x : Fin n} (h : k % n = x) : Fin.ofNat n k = x := Fin.ext h

/-- The page of a row. -/
theorem val_page (y : Fin 64) : (Fin.ofNat 8 ((y : ℕ) / 8) : ℕ) = y / 8 := by
  rw [Fin.val_ofNat]
  omega

theorem exists_page {j : ℤ} (h : 0 ≤ j ∧ j ≤ 7) : ∃ q : Fin 8, j = q := ⟨⟨j.toNat, by omega⟩, by simp; omega⟩

/-! ## The transfers, decoded -/

/-- The bits of a byte, as they are sent. -/
def sentBits (b : UInt8) : List Bool := (List.range 8).map (sentBit b)

theorem byteOf_sentBits (b : UInt8) : byteOf (sentBits b) = b := by
  revert b
  apply uint8_forall
  decide +kernel

theorem decode_sendByte (sda : Bool) (b : UInt8) :
    decode (Decoder.ready sda []) (oledI2cSendByte b) = ([.byte b], Decoder.ready true []) := by
  have hwave : oledI2cSendByte b = (sentBits b).flatMap clock ++ clock true := by
    rw [sentBits, List.flatMap_map]
    rfl
  rw [hwave, decode_byte (by simp [sentBits]), byteOf_sentBits]

/-- Bytes sent one after the other. -/
theorem decode_sendBytes (sda : Bool) (b : UInt8) (bs : List UInt8) :
    decode (Decoder.ready sda []) ((b :: bs).flatMap oledI2cSendByte) = ((b :: bs).map .byte, Decoder.ready true []) := by
  induction bs generalizing sda b with
  | nil => simpa using decode_sendByte sda b
  | cons c bs ih => exact decode_trans (decode_sendByte sda b) (ih true c)

/-- A whole transfer, from an idle bus to an idle bus. -/
theorem decode_transfer (b : UInt8) (bs : List UInt8) :
    decode Decoder.idle (oledI2cStart ++ (b :: bs).flatMap oledI2cSendByte ++ oledI2cStop) =
      (.start :: ((b :: bs).map .byte ++ [.stop]), Decoder.idle) :=
  decode_trans (decode_trans decode_start (decode_sendBytes false b bs)) (decode_stop true)

/-- The bytes of a call. -/
def BusCall.frame (addr : UInt8) (memory : ℕ → UInt8) : BusCall → List UInt8
  | .writeCommand command => [addr, 0x00, command]
  | .writeData page col count =>
    addr :: 0x40 :: (List.range count.toNat).map fun i => memory (128 * page + col + i)

theorem oledWriteCommand_eq (addr command : UInt8) :
    oledWriteCommand addr command = oledI2cStart ++ [addr, 0x00, command].flatMap oledI2cSendByte ++ oledI2cStop := by
  simp [oledWriteCommand]

theorem oledWriteData_eq (addr : UInt8) (data : ℕ → UInt8) (count : UInt8) :
    oledWriteData addr data count =
      oledI2cStart ++ (addr :: 0x40 :: (List.range count.toNat).map data).flatMap oledI2cSendByte ++ oledI2cStop := by
  simp [oledWriteData, List.flatMap_map]

/-- Every call is one transfer of its bytes. -/
theorem decode_wave (addr : UInt8) (memory : ℕ → UInt8) (call : BusCall) :
    decode Decoder.idle (call.wave addr memory) =
      (.start :: ((call.frame addr memory).map .byte ++ [.stop]), Decoder.idle) := by
  cases call with
  | writeCommand command =>
    rw [BusCall.wave, oledWriteCommand_eq]
    exact decode_transfer addr [0x00, command]
  | writeData page col count =>
    rw [BusCall.wave, oledWriteData_eq]
    exact decode_transfer addr _

/-- The run lemma: consecutive calls are their transfers, and leave the bus idle. -/
theorem decode_waves (addr : UInt8) (memory : ℕ → UInt8) (calls : List BusCall) :
    frames [] (decode Decoder.idle (calls.flatMap (BusCall.wave addr memory))).1 = calls.map (BusCall.frame addr memory) ∧
    (decode Decoder.idle (calls.flatMap (BusCall.wave addr memory))).2 = Decoder.idle := by
  induction calls with
  | nil => exact ⟨rfl, rfl⟩
  | cons call calls ih =>
    obtain ⟨hframes, hidle⟩ := ih
    rw [List.flatMap_cons, decode_append, decode_wave]
    refine ⟨?_, hidle⟩
    rw [List.cons_append, List.append_assoc, List.singleton_append, frames_transfer, hframes, List.map_cons]

/-! ## The panel -/

variable {addr : UInt8} {memory : ℕ → UInt8} {p : Panel}

theorem after_eq (addr : UInt8) (memory : ℕ → UInt8) (p : Panel) (calls : List BusCall) :
    p.after addr memory calls = calls.foldl (fun p call => p.receive addr (call.frame addr memory)) p := by
  rw [Panel.after, Panel.feed, (decode_waves addr memory calls).1, List.foldl_map]

theorem after_append (calls calls' : List BusCall) :
    p.after addr memory (calls ++ calls') = (p.after addr memory calls).after addr memory calls' := by
  rw [after_eq, after_eq, after_eq, List.foldl_append]

theorem receive_command (command : UInt8) : p.receive addr [addr, 0x00, command] = p.command command := by
  simp [Panel.receive]

theorem receive_data (bs : List UInt8) : p.receive addr (addr :: 0x40 :: bs) = bs.foldl Panel.data p := by
  simp [Panel.receive]

theorem after_writeData (page col : ℕ) (count : UInt8) :
    p.after addr memory [.writeData page col count] =
      ((List.range count.toNat).map fun i => memory (128 * page + col + i)).foldl Panel.data p := by
  rw [after_eq]
  exact receive_data _

theorem toNat_pageCommand {j : ℕ} (hj : j < 8) : (0xB0 ||| UInt8.ofNat j).toNat = 0xB0 + j := by
  have h : ∀ j < 8, (0xB0 ||| UInt8.ofNat j).toNat = 0xB0 + j := by decide
  exact h j hj

theorem toNat_highCommand (x : UInt8) : (0x10 ||| ((x &&& 0xF0) >>> (4 : UInt8))).toNat = 0x10 + x.toNat / 16 := by
  revert x
  apply uint8_forall
  decide +kernel

theorem toNat_lowCommand (x : UInt8) : (0x00 ||| (x &&& 0x0F)).toNat = x.toNat % 16 := by
  revert x
  apply uint8_forall
  decide +kernel

theorem command_page {b : UInt8} {j : Fin 8} (hb : b.toNat = 0xB0 + j) : p.command b = { p with page := j } := by
  have hj := j.isLt
  have hpage : Fin.ofNat 8 (b.toNat - 0xB0) = j := finOfNat_eq (by omega)
  rw [Panel.command, if_pos, hpage]
  rw [UInt8.le_iff_toNat_le, UInt8.le_iff_toNat_le, hb]
  simp
  omega

theorem command_high {b : UInt8} {k : ℕ} (hb : b.toNat = 0x10 + k) (hk : k < 16) :
    p.command b = { p with col := Fin.ofNat 128 (k * 16 + p.col % 16) } := by
  rw [Panel.command, if_neg, if_neg, if_pos, hb, Nat.add_sub_cancel_left]
  · rw [UInt8.lt_iff_toNat_lt, hb]
    simp
    omega
  · rw [UInt8.lt_iff_toNat_lt, hb]
    simp
  · rw [UInt8.le_iff_toNat_le, hb]
    simp
    omega

theorem command_low {b : UInt8} (hb : b.toNat < 16) :
    p.command b = { p with col := Fin.ofNat 128 (p.col / 16 * 16 + b.toNat) } := by
  rw [Panel.command, if_neg, if_pos]
  · rw [UInt8.lt_iff_toNat_lt]
    simpa using hb
  · rw [UInt8.le_iff_toNat_le]
    simp
    omega

/-- `OLED_SetCursor` sets the page and the column, whatever they were. -/
theorem after_setCursor (j : Fin 8) (x : Fin 128) :
    p.after addr memory (oledSetCursor (UInt8.ofNat j) (UInt8.ofNat x)) = { p with page := j, col := x } := by
  have hx := x.isLt
  have hx8 : (UInt8.ofNat x).toNat = x := UInt8.toNat_ofNat_of_lt' (hx.trans (by decide))
  have hlow := toNat_lowCommand (UInt8.ofNat x)
  have hhigh := toNat_highCommand (UInt8.ofNat x)
  rw [hx8] at hlow hhigh
  simp only [after_eq, oledSetCursor, List.foldl_cons, List.foldl_nil, BusCall.frame, receive_command]
  rw [command_page (toNat_pageCommand j.isLt), command_high hhigh (by omega), command_low (by rw [hlow]; omega), hlow]
  have hcol : Fin.ofNat 128 ((Fin.ofNat 128 ((x : ℕ) / 16 * 16 + (p.col : ℕ) % 16) : ℕ) / 16 * 16 + (x : ℕ) % 16) = x := by
    apply finOfNat_eq
    simp only [Fin.val_ofNat]
    omega
  rw [hcol]

theorem page_foldl_data (bs : List UInt8) (p : Panel) : (bs.foldl Panel.data p).page = p.page := by
  induction bs generalizing p with
  | nil => rfl
  | cons b bs ih => exact ih _

theorem col_foldl_data (bs : List UInt8) (p : Panel) :
    ((bs.foldl Panel.data p).col : ℕ) = (p.col + bs.length) % 128 := by
  induction bs generalizing p with
  | nil => exact (Nat.mod_eq_of_lt p.col.isLt).symm
  | cons b bs ih =>
    have hcol : ((p.data b).col : ℕ) = (p.col + 1) % 128 := rfl
    rw [List.foldl_cons, ih, hcol, List.length_cons]
    omega

theorem ram_data (p : Panel) (b : UInt8) (q : Fin 8) (x : Fin 128) :
    (p.data b).ram q x = if q = p.page ∧ x = p.col then b else p.ram q x := by
  show Function.update p.ram p.page (Function.update (p.ram p.page) p.col b) q x = _
  rw [Function.update_apply]
  by_cases hq : q = p.page
  · rw [if_pos hq, Function.update_apply, hq]
    simp
  · rw [if_neg hq, if_neg (fun h => hq h.1)]

/-- Bytes that stay in the page go to its columns one after the other. -/
theorem ram_foldl_data (bs : List UInt8) (p : Panel) (h : p.col + bs.length ≤ 128) (q : Fin 8) (x : Fin 128) :
    (bs.foldl Panel.data p).ram q x =
      if q = p.page ∧ (p.col : ℕ) ≤ x ∧ (x : ℕ) < p.col + bs.length then bs.getD (x - p.col) 0 else p.ram q x := by
  induction bs using List.reverseRecOn with
  | nil =>
    rw [if_neg]
    · rfl
    · rintro ⟨-, hle, hlt⟩
      exact absurd hlt (Nat.not_lt.mpr hle)
  | append_singleton bs b ih =>
    rw [List.length_append, List.length_singleton] at h
    have hcol := col_foldl_data bs p
    rw [Nat.mod_eq_of_lt (by omega)] at hcol
    rw [List.foldl_append, List.foldl_cons, List.foldl_nil, ram_data, page_foldl_data, ih (by omega)]
    rw [List.length_append, List.length_singleton]
    by_cases hx : x = (bs.foldl Panel.data p).col
    · have hx' : (x : ℕ) = p.col + bs.length := by rw [hx, hcol]
      have hlast : (bs ++ [b]).getD ((x : ℕ) - p.col) 0 = b := by
        rw [hx', Nat.add_sub_cancel_left]
        simp
      rw [hlast]
      by_cases hq : q = p.page
      · rw [if_pos ⟨hq, hx⟩, if_pos ⟨hq, by omega, by omega⟩]
      · rw [if_neg (fun h => hq h.1), if_neg (fun h => hq h.1), if_neg (fun h => hq h.1)]
    · have hx' : (x : ℕ) ≠ p.col + bs.length := by
        intro he
        exact hx (Fin.ext (he.trans hcol.symm))
      rw [if_neg (fun h => hx h.2)]
      by_cases hin : q = p.page ∧ (p.col : ℕ) ≤ x ∧ (x : ℕ) < p.col + bs.length
      · rw [if_pos hin, if_pos ⟨hin.1, hin.2.1, by omega⟩, List.getD_append _ _ _ _ (by omega)]
      · rw [if_neg hin, if_neg (fun h => hin ⟨h.1, h.2.1, by omega⟩)]

/-! ## Rows of the frame buffer -/

variable {buf : DisplayBuf} {beyond : ℕ → UInt8}

theorem memory_eq (j : Fin 8) (x : Fin 128) : buf.memory beyond (128 * j + x) = buf j x := by
  have hj := j.isLt
  have hx := x.isLt
  have hrow : Fin.ofNat 8 ((128 * (j : ℕ) + x) / 128) = j := finOfNat_eq (by omega)
  have hcol : Fin.ofNat 128 (128 * (j : ℕ) + x) = x := finOfNat_eq (by omega)
  rw [DisplayBuf.memory, if_pos (by omega), hrow, hcol]

/-- The calls that send a part of a row. -/
def sendRow (j x : ℕ) (width : UInt8) : List BusCall :=
  oledSetCursor (UInt8.ofNat j) (UInt8.ofNat x) ++ [.writeData j x width]

/-- A part of a row that ends in the row: exactly its bytes arrive. -/
theorem ram_after_sendRow (j : Fin 8) (x : Fin 128) {width : UInt8} (h : x + width.toNat ≤ 128) (q : Fin 8) (i : Fin 128) :
    (p.after addr (buf.memory beyond) (sendRow j x width)).ram q i =
      if q = j ∧ (x : ℕ) ≤ i ∧ (i : ℕ) < x + width.toNat then buf q i else p.ram q i := by
  rw [sendRow, after_append, after_setCursor, after_writeData]
  rw [ram_foldl_data _ _ (by simpa using h)]
  simp only [List.length_map, List.length_range]
  split
  · rename_i hin
    obtain ⟨rfl, hle, hlt⟩ := hin
    have hsub : 128 * (q : ℕ) + x + (i - x) = 128 * q + i := by omega
    rw [List.getD_eq_getElem _ _ (by simp; omega), List.getElem_map, List.getElem_range, hsub, memory_eq]
  · rfl

/-- The run lemma: parts of rows, for those of some numbers that are pages. -/
theorem ram_after_rows (js : List ℤ) (x : Fin 128) {width : UInt8} (h : x + width.toNat ≤ 128) (q : Fin 8) (i : Fin 128)
    (p : Panel) :
    (p.after addr (buf.memory beyond)
        (js.flatMap fun j => if 0 ≤ j ∧ j ≤ 7 then sendRow j.toNat x width else [])).ram q i =
      if (q : ℤ) ∈ js ∧ (x : ℕ) ≤ i ∧ (i : ℕ) < x + width.toNat then buf q i else p.ram q i := by
  induction js generalizing p with
  | nil => simp [after_eq]
  | cons j js ih =>
    rw [List.flatMap_cons, after_append, ih]
    by_cases hj : 0 ≤ j ∧ j ≤ 7
    · obtain ⟨j', rfl⟩ := exists_page hj
      rw [if_pos hj, Int.toNat_natCast, ram_after_sendRow j' x h]
      have hmem : (q : ℤ) ∈ (j' : ℤ) :: js ↔ q = j' ∨ (q : ℤ) ∈ js := by
        rw [List.mem_cons, Nat.cast_inj, Fin.val_inj]
      by_cases hin : (x : ℕ) ≤ i ∧ (i : ℕ) < x + width.toNat
      · by_cases hq : q = j'
        · simp [hq, hin]
        · simp only [hmem, hq, hin, false_or, false_and, if_false]
      · rw [if_neg (fun h => hin h.2), if_neg (fun h => hin h.2), if_neg (fun h => hin h.2)]
    · have hmem : (q : ℤ) ∈ j :: js ↔ (q : ℤ) ∈ js := by
        rw [List.mem_cons]
        constructor
        · rintro (rfl | hq)
          · exact absurd ⟨by omega, by omega⟩ hj
          · exact hq
        · exact Or.inr
      rw [if_neg hj]
      simp only [hmem]
      rfl

theorem ram_foldl_data_of_ne (bs : List UInt8) (p : Panel) {q : Fin 8} (hq : q ≠ p.page) (i : Fin 128) :
    (bs.foldl Panel.data p).ram q i = p.ram q i := by
  induction bs generalizing p with
  | nil => rfl
  | cons b bs ih =>
    rw [List.foldl_cons, ih (p.data b) hq, ram_data, if_neg]
    exact fun h => hq h.1

/-- Whatever the width, a page that is not sent stays: what is past the last column wraps in its page. -/
theorem ram_after_rows_of_not_mem (js : List ℤ) (x : Fin 128) (width : UInt8) {q : Fin 8} (hq : (q : ℤ) ∉ js) (i : Fin 128)
    (p : Panel) :
    (p.after addr memory (js.flatMap fun j => if 0 ≤ j ∧ j ≤ 7 then sendRow j.toNat x width else [])).ram q i = p.ram q i := by
  induction js generalizing p with
  | nil => simp [after_eq]
  | cons j js ih =>
    rw [List.flatMap_cons, after_append, ih (fun h => hq (List.mem_cons_of_mem _ h))]
    by_cases hj : 0 ≤ j ∧ j ≤ 7
    · obtain ⟨j', rfl⟩ := exists_page hj
      rw [if_pos hj, Int.toNat_natCast, sendRow, after_append, after_setCursor, after_writeData, ram_foldl_data_of_ne]
      rintro rfl
      exact hq List.mem_cons_self
    · rw [if_neg hj]
      rfl

/-- `OLED_Update` sends the whole buffer. -/
theorem ram_after_oledUpdate (p : Panel) : (p.after addr (buf.memory beyond) oledUpdate).ram = buf := by
  have hcalls : oledUpdate =
      [0, 1, 2, 3, 4, 5, 6, 7].flatMap fun j : ℤ => if 0 ≤ j ∧ j ≤ 7 then sendRow j.toNat (0 : Fin 128) 128 else [] := by
    decide
  funext q i
  have hq : (q : ℤ) ∈ [0, 1, 2, 3, 4, 5, 6, 7] := by
    simp only [List.mem_cons, List.not_mem_nil, or_false]
    omega
  rw [hcalls, ram_after_rows _ (0 : Fin 128) (by decide), if_pos]
  refine ⟨hq, Nat.zero_le _, ?_⟩
  have h128 : (128 : UInt8).toNat = 128 := rfl
  rw [h128]
  omega

/-! ## Pages -/

theorem tdiv_eight_of_nonneg {a : ℤ} (h : 0 ≤ a) : a.tdiv 8 = a / 8 := Int.tdiv_eq_ediv_of_nonneg h

theorem tdiv_eight_of_neg {a : ℤ} (h : a < 0) : a.tdiv 8 = -(-a / 8) := by
  have hneg := Int.neg_tdiv (-a) 8
  rw [Int.neg_neg] at hneg
  rw [hneg, Int.tdiv_eq_ediv_of_nonneg (by omega)]

theorem int16_neg_iff {y : Int16} : y < 0 ↔ y.toInt < 0 := Int16.lt_iff_toInt_lt

theorem pageOf_of_nonneg {y : Int16} (h : 0 ≤ y.toInt) : pageOf y = y.toInt / 8 := by
  rw [pageOf, if_neg (by rw [int16_neg_iff]; omega), tdiv_eight_of_nonneg h]

theorem pageOf_of_neg {y : Int16} (h : y.toInt < 0) : pageOf y = -(-y.toInt / 8) - 1 := by
  rw [pageOf, if_pos (int16_neg_iff.mpr h), tdiv_eight_of_neg h]

end RtStopwatch

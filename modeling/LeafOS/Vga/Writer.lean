import LeafOS.Lib.Grid

/-!
# The VGA text writer

`vga_buffer.rs` keeps the cursor on the last of the 25 rows of the text buffer at
`0xb8000`: `Writer.column_position` is the column of the next cell there. A full row is not
wrapped when it fills up but when the next character arrives (`set_byte_colored`), and a new
line scrolls the whole buffer up in place (`new_line`); `old_line`, which the shell's
backspace uses, scrolls it down.

1. `newLine_apply`, `oldLine_apply`: the scrolls cell by cell, from the in-place shifts of
   `Grid`.
2. `scrolls_shift_rows`: `new_line` and `old_line` shift the rows exactly, and each undoes
   the other but for the row it blanks.
3. `writeByte_of_ne`, `writeColoredString_cons`: both writers put a cell the same way
   (`putCell`), so the text model of the next module covers them together.
4. `writeCharIndexed_eq`: `write_char_indexed` masks the column without shifting it down, so
   it only ever writes column 0; `writeCharIndexed_documented` compares it with the index
   format its comment gives.
-/

namespace LeafOS.Vga

/-- `vga_buffer::Color`. -/
inductive Color where
  | Black | Blue | Green | Cyan | Red | Magenta | Brown | LightGray
  | DarkGray | LightBlue | LightGreen | LightCyan | LightRed | Pink | Yellow | White
  deriving DecidableEq, Repr

/-- The `#[repr(u8)]` discriminant of a `Color`. -/
def Color.toUInt8 : Color → UInt8
  | .Black => 0 | .Blue => 1 | .Green => 2 | .Cyan => 3 | .Red => 4 | .Magenta => 5
  | .Brown => 6 | .LightGray => 7 | .DarkGray => 8 | .LightBlue => 9 | .LightGreen => 10
  | .LightCyan => 11 | .LightRed => 12 | .Pink => 13 | .Yellow => 14 | .White => 15

/-- `ColorCode`. -/
structure ColorCode where
  val : UInt8
  deriving DecidableEq, Repr

/-- `ColorCode::new`: the background in the high nibble, the foreground in the low one. -/
def ColorCode.new (foreground background : Color) : ColorCode :=
  ⟨(background.toUInt8 <<< 4) ||| foreground.toUInt8⟩

/-- `ScreenChar`. -/
structure ScreenChar where
  asciiCharacter : UInt8
  colorCode : ColorCode
  deriving DecidableEq, Repr

/-- `ColoredString`: its cells, and the color the next pushed byte gets. -/
structure ColoredString where
  chars : List ScreenChar
  currColor : ColorCode

namespace ColoredString

/-- `ColoredString::new`: no cells, white on black. -/
def new : ColoredString := ⟨[], ColorCode.new .White .Black⟩

/-- `push_char`: a cell in the current color. -/
def pushChar (s : ColoredString) (char : UInt8) : ColoredString :=
  { s with chars := s.chars ++ [⟨char, s.currColor⟩] }

/-- `color`. -/
def color (s : ColoredString) (color : ColorCode) : ColoredString := { s with currColor := color }

/-- `push_colored`. -/
def pushColored (s : ColoredString) (char : UInt8) (color : ColorCode) : ColoredString :=
  (s.color color).pushChar char

/-- `from_string`: every byte of the string, white on black. -/
def fromString (str : List UInt8) : ColoredString := str.foldl pushChar new

end ColoredString

/-- `BUFFER_HEIGHT`. -/
def bufferHeight : ℕ := 25

/-- `BUFFER_WIDTH`. -/
def bufferWidth : ℕ := 80

/-- `Writer`. The buffer is given by row and column; only rows below 25 and columns below 80
exist, and every access of the writer stays there. -/
structure Writer where
  columnPosition : ℕ
  colorCode : ColorCode
  buffer : Grid ScreenChar

/-- The global `WRITER` as `lazy_static!` builds it: column 0, yellow on black, over the text
buffer as the machine left it. -/
def WRITER (buffer : Grid ScreenChar) : Writer :=
  ⟨0, ColorCode.new .Yellow .Black, buffer⟩

namespace Writer

/-- The blank cell of `clear_row`: a space in the writer's color. -/
def blank (w : Writer) : ScreenChar := ⟨' '.toUInt8, w.colorCode⟩

/-- `clear_row`. -/
def clearRow (w : Writer) (row : ℕ) : Writer :=
  { w with buffer := w.buffer.fillRow row bufferWidth w.blank }

/-- `new_line`: every row moves up, walking the rows upward; the last row is cleared. -/
def newLine (w : Writer) : Writer :=
  { ({ w with buffer := w.buffer.shiftUp bufferHeight bufferWidth }.clearRow
      (bufferHeight - 1)) with columnPosition := 0 }

/-- `old_line`: every row moves down, walking the rows downward; the first row is cleared. -/
def oldLine (w : Writer) : Writer :=
  { ({ w with buffer := w.buffer.shiftDown bufferHeight bufferWidth }.clearRow 0) with
    columnPosition := 0 }

/-- `set_byte_colored`: a newline scrolls; any other byte first wraps a full row, then goes
into the cursor's cell. Returns whether the byte was a newline. -/
def setByteColored (w : Writer) (char : UInt8) (color : ColorCode) : Bool × Writer :=
  if char = '\n'.toUInt8 then (true, w.newLine)
  else
    let w := if bufferWidth ≤ w.columnPosition then w.newLine else w
    (false, { w with buffer := w.buffer.set (bufferHeight - 1) w.columnPosition ⟨char, color⟩ })

/-- `write_byte_colored`: `set_byte_colored`, then the cursor advances unless the byte was a
newline. -/
def writeByteColored (w : Writer) (char : UInt8) (color : ColorCode) : Writer :=
  let (newline, w) := w.setByteColored char color
  if !newline then { w with columnPosition := w.columnPosition + 1 } else w

/-- `write_byte`. -/
def writeByte (w : Writer) (char : UInt8) : Writer := w.writeByteColored char w.colorCode

/-- `set_byte`: writes without advancing the cursor. -/
def setByte (w : Writer) (char : UInt8) : Writer := (w.setByteColored char w.colorCode).2

/-- The bytes `write_string` passes on: printable ASCII and newlines. -/
def printableOrNewline (char : UInt8) : Bool :=
  (0x20 ≤ char && char ≤ 0x7e) || char = '\n'.toUInt8

/-- `write_string`, over the bytes of the string: other bytes are written as `0xfe`. -/
def writeString (w : Writer) (s : List UInt8) : Writer :=
  s.foldl (fun w char => if printableOrNewline char then w.writeByte char else w.writeByte 0xfe) w

/-- `write_colored_string`: every cell verbatim, wrapping a full row first. -/
def writeColoredString (w : Writer) (colored : List ScreenChar) : Writer :=
  colored.foldl (fun w char =>
    let w := if bufferWidth ≤ w.columnPosition then w.newLine else w
    { w with buffer := w.buffer.set (bufferHeight - 1) w.columnPosition char
             columnPosition := w.columnPosition + 1 }) w

/-- `is_current_row_clear`: every cell of the last row is blank. -/
def isCurrentRowClear (w : Writer) : Bool :=
  (List.range bufferWidth).all fun col => w.buffer (bufferHeight - 1) col = w.blank

/-- `set_column_position`. -/
def setColumnPosition (w : Writer) (columnPos : ℕ) : Writer :=
  { w with columnPosition := columnPos }

theorem isCurrentRowClear_iff (w : Writer) :
    w.isCurrentRowClear = true ↔ ∀ c < 80, w.buffer 24 c = w.blank := by
  simp only [isCurrentRowClear, bufferWidth, bufferHeight, List.all_eq_true, List.mem_range]
  exact forall₂_congr fun c _ => decide_eq_true_iff

/-! ## Scrolling -/

@[simp] theorem newLine_columnPosition (w : Writer) : w.newLine.columnPosition = 0 := rfl

@[simp] theorem newLine_colorCode (w : Writer) : w.newLine.colorCode = w.colorCode := rfl

@[simp] theorem oldLine_columnPosition (w : Writer) : w.oldLine.columnPosition = 0 := rfl

@[simp] theorem oldLine_colorCode (w : Writer) : w.oldLine.colorCode = w.colorCode := rfl

@[simp] theorem newLine_blank (w : Writer) : w.newLine.blank = w.blank := rfl

@[simp] theorem oldLine_blank (w : Writer) : w.oldLine.blank = w.blank := rfl

/-- `new_line` cell by cell: rows `0` to `23` get the row below, row `24` is blank. -/
theorem newLine_apply (w : Writer) (r c : ℕ) (hc : c < 80) :
    w.newLine.buffer r c =
      if r < 24 then w.buffer (r + 1) c else if r = 24 then w.blank else w.buffer r c := by
  simp only [newLine, clearRow, Grid.fillRow_apply, bufferWidth, bufferHeight]
  rw [Grid.shiftUp_apply _ _ _ _ _ hc]
  by_cases h24 : r = 24
  · simp [h24, hc, blank]
  · by_cases hr : r < 24
    · simp [h24, hr, show r + 1 < 25 by omega]
    · simp [h24, hr, show ¬ r + 1 < 25 by omega]

/-- `old_line` cell by cell: row `0` is blank, rows `1` to `24` get the row above. -/
theorem oldLine_apply (w : Writer) (r c : ℕ) (hc : c < 80) :
    w.oldLine.buffer r c =
      if r = 0 then w.blank else if r < 25 then w.buffer (r - 1) c else w.buffer r c := by
  simp only [oldLine, clearRow, Grid.fillRow_apply, bufferWidth, bufferHeight]
  rw [Grid.shiftDown_apply _ _ _ _ _ hc]
  by_cases h0 : r = 0
  · simp [h0, hc, blank]
  · by_cases hr : r < 25
    · simp [h0, hr, show 1 ≤ r by omega]
    · simp [h0, hr]

/-- For every buffer and column: `new_line` gives row `r` the old row `r + 1` for `r < 24`, a
blank row 24 and column 0; `old_line` gives row `r + 1` the old row `r` for `r < 24`, a blank
row 0 and column 0. So `old_line` after `new_line` only blanks row 0, and `new_line` after
`old_line` only blanks row 24. -/
theorem scrolls_shift_rows (w : Writer) :
    (∀ r < 24, ∀ c < 80, w.newLine.buffer r c = w.buffer (r + 1) c) ∧
      (∀ c < 80, w.newLine.buffer 24 c = w.blank) ∧ w.newLine.columnPosition = 0 ∧
      (∀ r < 24, ∀ c < 80, w.oldLine.buffer (r + 1) c = w.buffer r c) ∧
      (∀ c < 80, w.oldLine.buffer 0 c = w.blank) ∧ w.oldLine.columnPosition = 0 ∧
      (∀ r < 25, ∀ c < 80,
        w.newLine.oldLine.buffer r c = if r = 0 then w.blank else w.buffer r c) ∧
      (∀ r < 25, ∀ c < 80,
        w.oldLine.newLine.buffer r c = if r = 24 then w.blank else w.buffer r c) := by
  refine ⟨?_, ?_, rfl, ?_, ?_, rfl, ?_, ?_⟩
  · intro r hr c hc
    rw [newLine_apply w r c hc, if_pos hr]
  · intro c hc
    rw [newLine_apply w 24 c hc]
    rfl
  · intro r hr c hc
    rw [oldLine_apply w (r + 1) c hc, if_neg (by omega), if_pos (by omega), Nat.add_sub_cancel]
  · intro c hc
    rw [oldLine_apply w 0 c hc, if_pos rfl]
  · intro r hr c hc
    rw [oldLine_apply _ r c hc, newLine_blank]
    by_cases h0 : r = 0
    · rw [if_pos h0, if_pos h0]
    · rw [if_neg h0, if_neg h0, if_pos hr, newLine_apply w (r - 1) c hc, if_pos (by omega),
        Nat.sub_add_cancel (by omega)]
  · intro r hr c hc
    rw [newLine_apply _ r c hc, oldLine_blank]
    by_cases h24 : r = 24
    · rw [if_neg (by omega), if_pos h24, if_pos h24]
    · rw [if_pos (by omega), if_neg h24, oldLine_apply w (r + 1) c hc, if_neg (by omega),
        if_pos (by omega), Nat.add_sub_cancel]

/-! ## Writing cells -/

/-- The common path of `write_byte` for any byte but a newline and of each step of
`write_colored_string`: wrap a full row, write the cell, advance. -/
def putCell (w : Writer) (x : ScreenChar) : Writer :=
  let w := if bufferWidth ≤ w.columnPosition then w.newLine else w
  { w with buffer := w.buffer.set (bufferHeight - 1) w.columnPosition x
           columnPosition := w.columnPosition + 1 }

theorem putCell_of_lt (w : Writer) (x : ScreenChar) (h : w.columnPosition < 80) :
    w.putCell x = { w with buffer := w.buffer.set 24 w.columnPosition x
                           columnPosition := w.columnPosition + 1 } := by
  simp [putCell, bufferWidth, bufferHeight, show ¬ 80 ≤ w.columnPosition by omega]

theorem putCell_of_full (w : Writer) (x : ScreenChar) (h : 80 ≤ w.columnPosition) :
    w.putCell x = w.newLine.putCell x := by
  simp [putCell, bufferWidth, h]

theorem writeByte_newline (w : Writer) : w.writeByte '\n'.toUInt8 = w.newLine := by
  simp [writeByte, writeByteColored, setByteColored]

theorem writeByte_of_ne (w : Writer) {char : UInt8} (h : char ≠ '\n'.toUInt8) :
    w.writeByte char = w.putCell ⟨char, w.colorCode⟩ := by
  unfold writeByte writeByteColored setByteColored putCell
  by_cases hw : bufferWidth ≤ w.columnPosition <;> simp [h, hw]

@[simp] theorem putCell_colorCode (w : Writer) (x : ScreenChar) :
    (w.putCell x).colorCode = w.colorCode := by
  unfold putCell
  split <;> rfl

@[simp] theorem putCell_blank (w : Writer) (x : ScreenChar) : (w.putCell x).blank = w.blank := by
  simp [blank]

@[simp] theorem setByte_colorCode (w : Writer) (char : UInt8) :
    (w.setByte char).colorCode = w.colorCode := by
  unfold setByte setByteColored
  split_ifs <;> rfl

@[simp] theorem setColumnPosition_colorCode (w : Writer) (columnPos : ℕ) :
    (w.setColumnPosition columnPos).colorCode = w.colorCode := rfl

@[simp] theorem writeByte_colorCode (w : Writer) (char : UInt8) :
    (w.writeByte char).colorCode = w.colorCode := by
  by_cases h : char = '\n'.toUInt8
  · rw [h, writeByte_newline]; rfl
  · rw [writeByte_of_ne w h, putCell_colorCode]

theorem writeString_cons (w : Writer) (char : UInt8) (s : List UInt8) :
    w.writeString (char :: s) =
      (w.writeByte (if printableOrNewline char then char else 0xfe)).writeString s := by
  simp only [writeString, List.foldl_cons]
  split <;> rfl

theorem writeColoredString_cons (w : Writer) (x : ScreenChar) (xs : List ScreenChar) :
    w.writeColoredString (x :: xs) = (w.putCell x).writeColoredString xs := rfl

@[simp] theorem writeString_colorCode (w : Writer) (s : List UInt8) :
    (w.writeString s).colorCode = w.colorCode := by
  induction s generalizing w with
  | nil => rfl
  | cons char s ih => rw [writeString_cons, ih, writeByte_colorCode]

@[simp] theorem writeColoredString_colorCode (w : Writer) (xs : List ScreenChar) :
    (w.writeColoredString xs).colorCode = w.colorCode := by
  induction xs generalizing w with
  | nil => rfl
  | cons x xs ih => rw [writeColoredString_cons, ih, putCell_colorCode]

/-! ## Writing a cell by index -/

/-- `HEIGHT_MASK` of `write_char_indexed`, as its block computes it: `u8::MAX` without bits 5,
6 and 7. -/
def HEIGHT_MASK : UInt64 :=
  (0xff : UInt64) &&& ~~~((1 : UInt64) <<< 5) &&& ~~~((1 : UInt64) <<< 6) &&&
    ~~~((1 : UInt64) <<< 7)

/-- `WIDTH_MASK`: `u8::MAX` without bit 7, shifted by 8. -/
def WIDTH_MASK : UInt64 := ((0xff : UInt64) &&& ~~~((1 : UInt64) <<< 7)) <<< 8

/-- `write_char_indexed` of `CharDriverImpl<ScreenChar>`: the cell at row `index & HEIGHT_MASK`
and column `index & WIDTH_MASK`, or `none` where the indexing of `chars` panics. -/
def writeCharIndexed (w : Writer) (index : UInt64) (char : ScreenChar) : Option Writer :=
  let row := (index &&& HEIGHT_MASK).toNat
  let column := (index &&& WIDTH_MASK).toNat
  if row < bufferHeight ∧ column < bufferWidth then
    some { w with buffer := w.buffer.set row column char }
  else none

theorem toNat_and_heightMask (index : UInt64) :
    (index &&& HEIGHT_MASK).toNat = index.toNat % 2 ^ 5 := by
  rw [UInt64.toNat_and, show HEIGHT_MASK.toNat = 2 ^ 5 - 1 by decide,
    Nat.and_two_pow_sub_one_eq_mod]

theorem testBit_widthMask (j : ℕ) :
    WIDTH_MASK.toNat.testBit j = (decide (8 ≤ j) && decide (j < 15)) := by
  rw [show WIDTH_MASK.toNat = 0x7f00 by decide]
  by_cases hj : j < 16
  · interval_cases j <;> rfl
  · have hlt : (0x7f00 : ℕ) < 2 ^ j :=
      lt_of_lt_of_le (by norm_num) (Nat.pow_le_pow_right (by norm_num) (not_lt.mp hj))
    rw [Nat.testBit_lt_two_pow hlt]
    simp only [Bool.false_eq, Bool.and_eq_false_iff, decide_eq_false_iff_not]
    omega

/-- The column `WIDTH_MASK` keeps is bits 8 to 14 of the index, left in place: a multiple of
256. -/
theorem toNat_and_widthMask (index : UInt64) :
    (index &&& WIDTH_MASK).toNat = 2 ^ 8 * (index.toNat / 2 ^ 8 % 2 ^ 7) := by
  rw [UInt64.toNat_and]
  apply Nat.eq_of_testBit_eq
  intro j
  rw [Nat.testBit_and, testBit_widthMask, Nat.testBit_two_pow_mul, Nat.testBit_mod_two_pow,
    Nat.testBit_div_two_pow]
  by_cases h8 : 8 ≤ j
  · rw [Nat.sub_add_cancel h8]
    by_cases h15 : j < 15
    · simp [h8, h15, show j - 8 < 7 by omega]
    · simp [h15, show ¬ j - 8 < 7 by omega]
  · simp [h8]

/-- `write_char_indexed` on every index: it writes column 0 of row `index % 32` when bits 8 to 14
of the index are clear and that row exists, and panics otherwise. -/
theorem writeCharIndexed_eq (w : Writer) (index : UInt64) (char : ScreenChar) :
    w.writeCharIndexed index char =
      if index.toNat / 2 ^ 8 % 2 ^ 7 = 0 ∧ index.toNat % 2 ^ 5 < 25 then
        some { w with buffer := w.buffer.set (index.toNat % 2 ^ 5) 0 char }
      else none := by
  unfold writeCharIndexed
  rw [toNat_and_heightMask, toNat_and_widthMask]
  -- a multiple of 256 is below 80 only when it is 0
  by_cases hcol : index.toNat / 2 ^ 8 % 2 ^ 7 = 0
  · rw [hcol, Nat.mul_zero]
    simp [bufferHeight, bufferWidth]
  · have hbig : ¬ 2 ^ 8 * (index.toNat / 2 ^ 8 % 2 ^ 7) < bufferWidth := by
      simp only [bufferWidth]
      omega
    rw [if_neg fun h => hbig h.2, if_neg fun h => hcol h.1]

/-- For an index in the format `write_char_indexed` documents, the row in the first byte
(below 25) and the column in the second (below 80), it writes the cell of that row and column
when the column is 0, and panics for every other column. -/
theorem writeCharIndexed_documented (w : Writer) (row column : ℕ) (hrow : row < 25)
    (hcolumn : column < 80) (char : ScreenChar) :
    w.writeCharIndexed (row + 2 ^ 8 * column).toUInt64 char =
      if column = 0 then some { w with buffer := w.buffer.set row column char } else none := by
  have hsize : row + 2 ^ 8 * column < 2 ^ 64 := by omega
  rw [writeCharIndexed_eq, UInt64.toNat_ofNat_of_lt' hsize]
  have hcol : (row + 2 ^ 8 * column) / 2 ^ 8 % 2 ^ 7 = column := by omega
  have hrow' : (row + 2 ^ 8 * column) % 2 ^ 5 = row := by omega
  rw [hcol, hrow']
  by_cases h0 : column = 0
  · simp [h0, hrow]
  · simp [h0]

theorem writeCharIndexed_documented_row_three :
    let w := WRITER fun _ _ => ⟨' '.toUInt8, ColorCode.new .Yellow .Black⟩
    let char : ScreenChar := ⟨'A'.toUInt8, ColorCode.new .White .Black⟩
    3 < 25 ∧ 5 < 80 ∧ w.writeCharIndexed (3 + 2 ^ 8 * 5 : ℕ).toUInt64 char = none ∧
      w.writeCharIndexed (3 + 2 ^ 8 * 0 : ℕ).toUInt64 char =
        some { w with buffer := w.buffer.set 3 0 char } :=
  ⟨by decide, by decide, writeCharIndexed_documented _ 3 5 (by decide) (by decide) _,
    writeCharIndexed_documented _ 3 0 (by decide) (by decide) _⟩

end Writer

end LeafOS.Vga

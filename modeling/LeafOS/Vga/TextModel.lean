import Mathlib
import LeafOS.Vga.Writer

/-!
# The writer refines a text of rows

Seen from outside, the writer keeps an unbounded text: finished rows, and the row the cursor
is on. A newline finishes the cursor's row; a cell goes at the end of it, and a row that
already holds 80 cells is finished first, so wrapping is lazy. The buffer shows the last 25
rows of the text, padded with blanks.

1. `Text`, `Text.put`, `Text.feed`, `Text.render`: the text and what it shows.
2. `Shows`: the relation between a writer and the text it shows; `render_row` and
   `render_last` read a shown row.
3. `Shows.newLine`, `Shows.putCell`: each writer step keeps the relation with the
   matching text step.
4. `Shows.writeString`, `Shows.writeColoredString`: by induction over the input.
5. `writer_refines_text`: from any buffer whose last row is blank past the cursor.
-/

namespace LeafOS.Vga

/-- A text: the finished rows, oldest first, and the cursor's row. -/
structure Text where
  rows : List (List ScreenChar)
  cur : List ScreenChar

namespace Text

/-- Every row, the cursor's last. -/
def lines (T : Text) : List (List ScreenChar) := T.rows ++ [T.cur]

/-- A newline: the cursor's row is finished and a new empty one begins. -/
def newRow (T : Text) : Text := ⟨T.lines, []⟩

/-- A cell at the end of the cursor's row, after finishing the row if it holds 80 cells. -/
def put (T : Text) (x : ScreenChar) : Text :=
  if T.cur.length = 80 then ⟨T.lines, [x]⟩ else ⟨T.rows, T.cur ++ [x]⟩

/-- Printable ASCII and the newline are kept; every other byte becomes `0xfe`. -/
def mapByte (b : UInt8) : UInt8 := if (0x20 ≤ b ∧ b ≤ 0x7e) ∨ b = 0x0a then b else 0xfe

/-- A byte of a string: a newline, or a cell in the given color. -/
def feed (color : ColorCode) (T : Text) (b : UInt8) : Text :=
  if b = 0x0a then T.newRow else T.put ⟨b, color⟩

/-- The screen: the last 25 rows, each padded with `blank`. -/
def render (blank : ScreenChar) (T : Text) : Grid ScreenChar := fun r c =>
  (((T.lines.drop (T.lines.length - 25))[r]?).getD []).getD c blank

/-- The text a buffer shows with the cursor at column `col`: rows `0` to `23` whole, and the
first `col` cells of row `24`. -/
def ofBuffer (g : Grid ScreenChar) (col : ℕ) : Text :=
  ⟨(List.range 24).map fun r => (List.range 80).map (g r), (List.range col).map (g 24)⟩

/-- Bytes as cells of one color. -/
def cellsOf (color : ColorCode) (bs : List UInt8) : List ScreenChar := bs.map fun b => ⟨b, color⟩

@[simp] theorem newRow_rows (T : Text) : T.newRow.rows = T.rows ++ [T.cur] := rfl

@[simp] theorem newRow_cur (T : Text) : T.newRow.cur = [] := rfl

theorem put_of_lt (T : Text) (x : ScreenChar) (h : T.cur.length < 80) :
    T.put x = ⟨T.rows, T.cur ++ [x]⟩ := by
  simp [put, show T.cur.length ≠ 80 by omega]

theorem put_of_full (T : Text) (x : ScreenChar) (h : T.cur.length = 80) :
    T.put x = T.newRow.put x := by
  simp [put, newRow, h]

theorem mapByte_ne_newline {b : UInt8} (h : b ≠ 0x0a) : mapByte b ≠ 0x0a := by
  unfold mapByte
  split <;> simp [h]

/-- Bytes without a newline that fit on the cursor's row are put after it. -/
theorem foldl_feed_of_fit (color : ColorCode) (bs : List UInt8) (T : Text)
    (hnl : (0x0a : UInt8) ∉ bs) (hfit : T.cur.length + bs.length ≤ 80) :
    bs.foldl (feed color) T = ⟨T.rows, T.cur ++ cellsOf color bs⟩ := by
  induction bs generalizing T with
  | nil => simp [cellsOf]
  | cons b bs ih =>
    have hb : b ≠ 0x0a := fun h => hnl (h ▸ List.mem_cons_self)
    have hput : T.feed color b = ⟨T.rows, T.cur ++ [⟨b, color⟩]⟩ := by
      rw [feed, if_neg hb, put_of_lt T _ (by simp at hfit; omega)]
    have hfit' : (T.cur ++ [(⟨b, color⟩ : ScreenChar)]).length + bs.length ≤ 80 := by
      simp at hfit ⊢; omega
    rw [List.foldl_cons, hput, ih _ (fun h => hnl (List.mem_cons_of_mem b h)) hfit']
    simp [cellsOf]

/-- Cells that fit on the cursor's row are put after it. -/
theorem foldl_put_of_fit (xs : List ScreenChar) (T : Text)
    (hfit : T.cur.length + xs.length ≤ 80) : xs.foldl put T = ⟨T.rows, T.cur ++ xs⟩ := by
  induction xs generalizing T with
  | nil => simp
  | cons x xs ih =>
    have hfit' : (T.cur ++ [x]).length + xs.length ≤ 80 := by
      simp at hfit ⊢; omega
    rw [List.foldl_cons, put_of_lt T x (by simp at hfit; omega), ih _ hfit']
    simp

theorem mapByte_eq (b : UInt8) :
    mapByte b = if Writer.printableOrNewline b then b else 0xfe := by
  have hnl : '\n'.toUInt8 = 0x0a := rfl
  simp [mapByte, Writer.printableOrNewline, hnl]

/-- With at least 24 finished rows, screen row `r < 24` is the finished row `r` places
after the 24th from the end. -/
theorem render_row {T : Text} (h : 24 ≤ T.rows.length) {r : ℕ} (hr : r < 24)
    (b : ScreenChar) (c : ℕ) :
    T.render b r c = ((T.rows[T.rows.length - 24 + r]?).getD []).getD c b := by
  have hlen : T.lines.length - 25 = T.rows.length - 24 := by
    simp only [lines, List.length_append, List.length_singleton]; omega
  have hidx : T.rows.length - 24 + r < T.rows.length := by omega
  rw [render, hlen, List.getElem?_drop, lines, List.getElem?_append_left hidx]

/-- With at least 24 finished rows, screen row `24` is the cursor's row. -/
theorem render_last {T : Text} (h : 24 ≤ T.rows.length) (b : ScreenChar) (c : ℕ) :
    T.render b 24 c = T.cur.getD c b := by
  have hlen : T.lines.length - 25 = T.rows.length - 24 := by
    simp only [lines, List.length_append, List.length_singleton]; omega
  have hidx : T.rows.length - 24 + 24 = T.rows.length := by omega
  rw [render, hlen, List.getElem?_drop, lines, hidx, List.getElem?_concat_length]
  rfl

end Text

/-- The writer shows the text: at least 24 finished rows, a cursor row of at most 80 cells
whose length is the writer's column, and every cell of the buffer as the text renders it. -/
structure Shows (w : Writer) (T : Text) : Prop where
  rows_length : 24 ≤ T.rows.length
  cur_length : T.cur.length ≤ 80
  column : w.columnPosition = T.cur.length
  cells : ∀ r < 25, ∀ c < 80, w.buffer r c = T.render w.blank r c

theorem getD_concat {α : Type} (l : List α) (x b : α) (c : ℕ) :
    (l ++ [x]).getD c b = if c = l.length then x else l.getD c b := by
  rcases lt_trichotomy c l.length with hc | rfl | hc
  · simp [List.getD_eq_getElem?_getD, List.getElem?_append_left hc, hc.ne]
  · simp
  · have hlen : (l ++ [x]).length ≤ c := by simp; omega
    simp [List.getD_eq_getElem?_getD, List.getElem?_eq_none hlen, List.getElem?_eq_none hc.le,
      hc.ne']

theorem getD_append_eq {α : Type} (l l' : List α) (b : α) (c : ℕ) :
    (l ++ l').getD c b = if c < l.length then l.getD c b else l'.getD (c - l.length) b := by
  by_cases hc : c < l.length
  · rw [if_pos hc, List.getD_append _ _ _ _ hc]
  · rw [if_neg hc, List.getD_append_right _ _ _ _ (by omega)]

/-- The rows read off a buffer render as the buffer's rows, whatever the cursor's row. -/
theorem Text.render_ofBuffer_row (g : Grid ScreenChar) (col : ℕ) (cur : List ScreenChar)
    (b : ScreenChar) {r c : ℕ} (hr : r < 24) (hc : c < 80) :
    Text.render b ⟨(Text.ofBuffer g col).rows, cur⟩ r c = g r c := by
  have hrows : 24 ≤ (⟨(Text.ofBuffer g col).rows, cur⟩ : Text).rows.length := by
    simp [Text.ofBuffer]
  rw [Text.render_row hrows hr]
  simp [Text.ofBuffer, List.getD_eq_getElem?_getD, hr, hc]

/-- `new_line` finishes the cursor's row. -/
theorem Shows.newLine {w : Writer} {T : Text} (hs : Shows w T) : Shows w.newLine T.newRow where
  rows_length := by simp only [Text.newRow_rows, List.length_append]; have := hs.rows_length; omega
  cur_length := by simp
  column := by simp
  cells r hr c hc := by
    have h24 : 24 ≤ T.newRow.rows.length := by simp; have := hs.rows_length; omega
    rw [Writer.newLine_apply w r c hc, Writer.newLine_blank]
    by_cases hr24 : r = 24
    · subst hr24
      simp [Text.render_last h24]
    have hr' : r < 24 := by omega
    rw [if_pos hr', hs.cells (r + 1) (by omega) c hc, Text.render_row h24 hr']
    -- the new row `r` is the old row `r + 1`: a finished row, or the old cursor row
    by_cases hr23 : r = 23
    · subst hr23
      have hidx : T.rows.length + 1 - 24 + 23 = T.rows.length := by have := hs.rows_length; omega
      rw [Text.render_last hs.rows_length, Text.newRow_rows, List.length_append,
        List.length_singleton, hidx, List.getElem?_concat_length]
      rfl
    · have hidx : T.rows.length + 1 - 24 + r = T.rows.length - 24 + (r + 1) := by
        have := hs.rows_length; omega
      rw [Text.render_row hs.rows_length (by omega), Text.newRow_rows, List.length_append,
        List.length_singleton, hidx, List.getElem?_append_left (by omega)]

/-- A cell put into a row that is not full: the buffer cell at the cursor, and the text's
cursor row, both get it. -/
theorem Shows.putCell_of_lt {w : Writer} {T : Text} (hs : Shows w T) (x : ScreenChar)
    (h : T.cur.length < 80) : Shows (w.putCell x) (T.put x) := by
  rw [Writer.putCell_of_lt w x (hs.column ▸ h), Text.put_of_lt T x h]
  refine ⟨hs.rows_length, by simp; omega, by simp [hs.column], ?_⟩
  intro r hr c hc
  have hb : ({ w with buffer := w.buffer.set 24 w.columnPosition x
                      columnPosition := w.columnPosition + 1 } : Writer).blank = w.blank := rfl
  show w.buffer.set 24 w.columnPosition x r c = _
  rw [hb, Grid.set_apply]
  have h' : 24 ≤ (⟨T.rows, T.cur ++ [x]⟩ : Text).rows.length := hs.rows_length
  by_cases hr24 : r = 24
  · subst hr24
    rw [Text.render_last h', getD_concat, hs.column]
    by_cases hcur : c = T.cur.length
    · simp [hcur]
    · simp [hcur, hs.cells 24 (by omega) c hc, Text.render_last hs.rows_length]
  · have hr' : r < 24 := by omega
    rw [if_neg (by omega), hs.cells r hr c hc, Text.render_row hs.rows_length hr',
      Text.render_row h' hr']

/-- A cell put by either writer: into a row that is full, after `new_line`. -/
theorem Shows.putCell {w : Writer} {T : Text} (hs : Shows w T) (x : ScreenChar) :
    Shows (w.putCell x) (T.put x) := by
  by_cases hfull : T.cur.length = 80
  · rw [Writer.putCell_of_full w x (by rw [hs.column, hfull]), Text.put_of_full T x hfull]
    exact hs.newLine.putCell_of_lt x (by simp)
  · exact hs.putCell_of_lt x (by have := hs.cur_length; omega)

/-- `write_byte` is the text's `feed` in the writer's color. -/
theorem Shows.writeByte {w : Writer} {T : Text} (hs : Shows w T) (b : UInt8) :
    Shows (w.writeByte b) (T.feed w.colorCode b) := by
  have hnl : '\n'.toUInt8 = 0x0a := rfl
  by_cases hb : b = 0x0a
  · rw [hb, ← hnl, Writer.writeByte_newline, hnl]
    simpa [Text.feed] using hs.newLine
  · rw [Writer.writeByte_of_ne w (hnl ▸ hb)]
    simpa [Text.feed, hb] using hs.putCell ⟨b, w.colorCode⟩

theorem Shows.writeString {w : Writer} {T : Text} (hs : Shows w T) (s : List UInt8) :
    Shows (w.writeString s) ((s.map Text.mapByte).foldl (Text.feed w.colorCode) T) := by
  induction s generalizing w T with
  | nil => exact hs
  | cons b s ih =>
    rw [Writer.writeString_cons, List.map_cons, List.foldl_cons, Text.mapByte_eq]
    simpa using ih (hs.writeByte _)

theorem Shows.writeColoredString {w : Writer} {T : Text} (hs : Shows w T)
    (xs : List ScreenChar) : Shows (w.writeColoredString xs) (xs.foldl Text.put T) := by
  induction xs generalizing w T with
  | nil => exact hs
  | cons x xs ih =>
    rw [Writer.writeColoredString_cons, List.foldl_cons]
    exact ih (hs.putCell x)

/-- A buffer shows the text read off it, when its last row is blank past the cursor. -/
theorem shows_ofBuffer (w : Writer) (hcol : w.columnPosition ≤ 80)
    (hblank : ∀ c, w.columnPosition ≤ c → c < 80 → w.buffer 24 c = w.blank) :
    Shows w (Text.ofBuffer w.buffer w.columnPosition) := by
  have hrows : (Text.ofBuffer w.buffer w.columnPosition).rows.length = 24 := by
    simp [Text.ofBuffer]
  refine ⟨hrows.ge, by simp [Text.ofBuffer, hcol], by simp [Text.ofBuffer], ?_⟩
  intro r hr c hc
  by_cases hr24 : r = 24
  · subst hr24
    rw [Text.render_last hrows.ge]
    by_cases hcc : c < w.columnPosition
    · simp [Text.ofBuffer, List.getD_eq_getElem?_getD, hcc]
    · rw [hblank c (by omega) hc, List.getD_eq_default _ _ (by simp [Text.ofBuffer]; omega)]
  · exact (Text.render_ofBuffer_row _ w.columnPosition _ _ (by omega) hc).symm

/-- The cursor's row of a writer that shows a text is blank from the cursor on. -/
theorem Shows.blank_past_cursor {w : Writer} {T : Text} (hs : Shows w T) :
    ∀ c, w.columnPosition ≤ c → c < 80 → w.buffer 24 c = w.blank := by
  intro c hc h80
  rw [hs.cells 24 (by omega) c h80, Text.render_last hs.rows_length]
  exact List.getD_eq_default _ _ (hs.column ▸ hc)

/-- For every writer whose column is at most 80 and whose last row is blank from the cursor
on, and for every input, `write_string` and `write_colored_string` leave the buffer and the
column that the text model computes from the rows read off the buffer. -/
theorem writer_refines_text (w : Writer) (hcol : w.columnPosition ≤ 80)
    (hblank : ∀ c, w.columnPosition ≤ c → c < 80 → w.buffer 24 c = w.blank) :
    (∀ s : List UInt8,
      let T := (s.map Text.mapByte).foldl (Text.feed w.colorCode)
        (Text.ofBuffer w.buffer w.columnPosition)
      (∀ r < 25, ∀ c < 80, (w.writeString s).buffer r c = T.render w.blank r c) ∧
        (w.writeString s).columnPosition = T.cur.length) ∧
    (∀ xs : List ScreenChar,
      let T := xs.foldl Text.put (Text.ofBuffer w.buffer w.columnPosition)
      (∀ r < 25, ∀ c < 80, (w.writeColoredString xs).buffer r c = T.render w.blank r c) ∧
        (w.writeColoredString xs).columnPosition = T.cur.length) := by
  have hs := shows_ofBuffer w hcol hblank
  constructor
  · intro s
    have hw := hs.writeString s
    have hb : (w.writeString s).blank = w.blank := by simp [Writer.blank]
    exact ⟨hb ▸ hw.cells, hw.column⟩
  · intro xs
    have hw := hs.writeColoredString xs
    have hb : (w.writeColoredString xs).blank = w.blank := by simp [Writer.blank]
    exact ⟨hb ▸ hw.cells, hw.column⟩

theorem writer_refines_text_blank_screen :
    let w : Writer := ⟨0, ⟨0x0f⟩, fun _ _ => ⟨' '.toUInt8, ⟨0x0f⟩⟩⟩
    w.columnPosition ≤ 80 ∧ (∀ c, w.columnPosition ≤ c → c < 80 → w.buffer 24 c = w.blank) ∧
    ((∀ s : List UInt8,
      let T := (s.map Text.mapByte).foldl (Text.feed w.colorCode)
        (Text.ofBuffer w.buffer w.columnPosition)
      (∀ r < 25, ∀ c < 80, (w.writeString s).buffer r c = T.render w.blank r c) ∧
        (w.writeString s).columnPosition = T.cur.length) ∧
    (∀ xs : List ScreenChar,
      let T := xs.foldl Text.put (Text.ofBuffer w.buffer w.columnPosition)
      (∀ r < 25, ∀ c < 80, (w.writeColoredString xs).buffer r c = T.render w.blank r c) ∧
        (w.writeColoredString xs).columnPosition = T.cur.length)) :=
  ⟨by decide, fun _ _ _ => rfl, writer_refines_text _ (by decide) (fun _ _ _ => rfl)⟩

end LeafOS.Vga

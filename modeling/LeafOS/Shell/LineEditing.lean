import Mathlib
import LeafOS.Shell.Basic
import LeafOS.Vga.TextModel

/-!
# Line editing in the shell

From a prompt, the shell draws each key as the cells of its text and counts it; a backspace
takes back one count and one cell. A key drawn as several cells (a raw key's name, a
character outside ASCII) therefore leaves all but its last cell on the screen when it is
erased.

1. `edit`: what a key does to the typed cells and the count; `cancel`, `reduce`: what a
   backspace does to the keys.
2. `Edits`: the writer shows the typed cells after the prompt and the shell counts the keys;
   `Edits.type`, `Edits.erase`, `Edits.keyEvent` for one key, `Edits.keyEvents` for a run.
3. `keyEvents_edit_cells`: the whole line after any run of keys, cell by cell.
4. `backspace_after_key_keeps_cells`: a key and a backspace leave the key's cells but the last.
5. `keyEvents_cancel_last_key`: when each key is drawn as one cell, a backspace cancels
   exactly the last key.
6. `println_splits_line`: a line printed through `Shell::write` while keys are typed goes after
   the typed cells and starts a new prompt; the keys typed before it can no longer be erased.
-/

namespace LeafOS.Vga

theorem getD_dropLast {α : Type} (l : List α) (b : α) (c : ℕ) :
    l.dropLast.getD c b = if c + 1 = l.length then b else l.getD c b := by
  rcases List.eq_nil_or_concat' l with rfl | ⟨l', x, rfl⟩
  · simp
  · rw [List.dropLast_concat, getD_concat]
    by_cases hc : c = l'.length
    · simp [hc]
    · simp [hc]

/-- Erasing the cell before the cursor drops the last cell of the cursor's row. -/
theorem Shows.eraseCell {w : Writer} {T : Text} (hs : Shows w T) (h : T.cur ≠ []) :
    Shows w.eraseCell ⟨T.rows, T.cur.dropLast⟩ := by
  have hlen : 0 < T.cur.length := List.length_pos_iff.mpr h
  have h' : 24 ≤ (⟨T.rows, T.cur.dropLast⟩ : Text).rows.length := hs.rows_length
  refine ⟨hs.rows_length, by simp; have := hs.cur_length; omega,
    by simp [hs.column], ?_⟩
  intro r hr c hc
  have hb : w.eraseCell.blank = w.blank := rfl
  show w.buffer.set 24 (w.columnPosition - 1) w.blank r c = _
  rw [Grid.set_apply, hb]
  by_cases hr24 : r = 24
  · subst hr24
    rw [Text.render_last h', getD_dropLast, hs.column]
    by_cases hcur : c + 1 = T.cur.length
    · rw [if_pos ⟨rfl, by omega⟩, if_pos hcur]
    · rw [if_neg (by omega), if_neg hcur, hs.cells 24 hr c hc, Text.render_last hs.rows_length]
  · have hr' : r < 24 := by omega
    rw [if_neg (by omega), hs.cells r hr c hc, Text.render_row hs.rows_length hr',
      Text.render_row h' hr']

end LeafOS.Vga

namespace LeafOS.Shell

open Vga

/-! ## The line, key by key -/

variable {K : Type} [DecidableEq K] (codes : KeyCodes K)

/-- The two backspaces of `key_event`. -/
def isBackspace : DecodedKey K → Bool
  | .RawKey key => key = codes.backspace
  | .Unicode key => key = BACKSPACE

/-- The bytes a key is drawn as: its `Debug` text or its UTF-8 bytes, mapped as `write_string`
maps them. -/
def render : DecodedKey K → List UInt8
  | .RawKey key => (codes.debug key).map Text.mapByte
  | .Unicode key => (String.utf8EncodeChar key).map Text.mapByte

/-- A backspace removes the last key left, if there is one; any other key is kept. -/
def cancel (st : List (DecodedKey K)) (k : DecodedKey K) : List (DecodedKey K) :=
  if isBackspace codes k then st.dropLast else st ++ [k]

/-- The keys left once every backspace has cancelled the key before it. -/
def reduce (ks : List (DecodedKey K)) : List (DecodedKey K) := ks.foldl (cancel codes) []

/-- What a key does to the typed cells and the count of keys: a key adds its cells and one
count, a backspace with a key counted removes one cell and one count. -/
def edit (st : List UInt8 × ℕ) (k : DecodedKey K) : List UInt8 × ℕ :=
  if isBackspace codes k then (if 0 < st.2 then (st.1.dropLast, st.2 - 1) else st)
  else (st.1 ++ render codes k, st.2 + 1)

theorem newline_not_mem_utf8EncodeChar {c : Char} (hc : c ≠ '\n') :
    (0x0a : UInt8) ∉ String.utf8EncodeChar c := by
  have hv : c.val.toNat ≠ 10 := by
    intro h
    apply hc
    apply Char.ext
    apply UInt32.toNat_inj.mp
    simpa using h
  have htoNat : c.toNat = c.val.toNat := rfl
  unfold String.utf8EncodeChar
  intro hmem
  dsimp only at hmem
  split_ifs at hmem <;> simp [UInt8.ext_iff, UInt8.toNat_ofNat] at hmem <;> omega

/-- The bytes `key_event` writes for a key that is neither a backspace nor `ENTER`, and
their image under the byte map. -/
theorem written_bytes (k : DecodedKey K) (hk : isBackspace codes k = false)
    (hent : k ≠ .Unicode ENTER) :
    ∃ bs : List UInt8, bs ≠ [] ∧ (0x0a : UInt8) ∉ bs ∧ render codes k = bs.map Text.mapByte ∧
      ∀ (sh : Shell) (w : Writer), sh.keyEvent codes w k =
        ({ sh with writtenCharCount := sh.writtenCharCount + 1 }, w.writeString bs) := by
  cases k with
  | RawKey key =>
    have hkey : key ≠ codes.backspace := by simpa [isBackspace] using hk
    exact ⟨codes.debug key, codes.debug_ne_nil key, codes.newline_not_mem key, rfl,
      fun sh w => keyEvent_rawKey codes sh w key hkey⟩
  | Unicode key =>
    have hbs : key ≠ BACKSPACE := by simpa [isBackspace] using hk
    have hent' : key ≠ ENTER := fun h => hent (h ▸ rfl)
    refine ⟨String.utf8EncodeChar key, ?_, newline_not_mem_utf8EncodeChar (hent' ·), rfl,
      fun sh w => keyEvent_unicode codes sh w key hbs hent'⟩
    rw [← List.length_pos_iff, String.length_utf8EncodeChar]
    exact Char.utf8Size_pos key

/-! ## The shell shows the line -/

/-- The writer shows the rows `rows` and, on the cursor's row, the cells `base` followed by
the typed cells `st.1` in the writer's color; the shell counts `st.2` keys, never more than
there are typed cells. -/
structure Edits (rows : List (List ScreenChar)) (base : List ScreenChar) (sh : Shell)
    (w : Writer) (st : List UInt8 × ℕ) : Prop where
  shows : Shows w ⟨rows, base ++ Text.cellsOf w.colorCode st.1⟩
  count : sh.writtenCharCount = st.2
  count_le : st.2 ≤ st.1.length

/-- Bytes without a newline go through `write_string` after the typed cells; the count is
unchanged. -/
theorem Edits.print {rows : List (List ScreenChar)} {base : List ScreenChar} {sh : Shell}
    {w : Writer} {st : List UInt8 × ℕ} (he : Edits rows base sh w st) (bs : List UInt8)
    (hnl : (0x0a : UInt8) ∉ bs) (hfit : base.length + st.1.length + bs.length ≤ 80) :
    Edits rows base sh (w.writeString bs) (st.1 ++ bs.map Text.mapByte, st.2) := by
  have hnl' : (0x0a : UInt8) ∉ bs.map Text.mapByte := by
    simp only [List.mem_map, not_exists, not_and]
    intro b hb
    exact Text.mapByte_ne_newline (fun h => hnl (h ▸ hb))
  have hshow := he.shows.writeString bs
  rw [Text.foldl_feed_of_fit _ _ _ hnl' (by simpa [Text.cellsOf, Nat.add_assoc] using hfit)]
    at hshow
  refine ⟨?_, he.count, by simp; have := he.count_le; omega⟩
  simpa [Text.cellsOf] using hshow

/-- A typed key: its bytes go through `write_string` after the typed cells, and it is
counted. -/
theorem Edits.type {rows : List (List ScreenChar)} {base : List ScreenChar} {sh : Shell}
    {w : Writer} {st : List UInt8 × ℕ} (he : Edits rows base sh w st) (bs : List UInt8)
    (hne : bs ≠ []) (hnl : (0x0a : UInt8) ∉ bs)
    (hfit : base.length + st.1.length + bs.length ≤ 80) :
    Edits rows base { sh with writtenCharCount := sh.writtenCharCount + 1 } (w.writeString bs)
      (st.1 ++ bs.map Text.mapByte, st.2 + 1) := by
  have hp := he.print bs hnl hfit
  have hlen : 0 < bs.length := List.length_pos_iff.mpr hne
  refine ⟨hp.shows, by simp [he.count], by simp; have := he.count_le; omega⟩

/-- `Shell::newline` with the prompt enabled: the line is finished, and a new one starts with
the prompt and no key counted. -/
theorem Edits.newline {rows : List (List ScreenChar)} {base : List ScreenChar} {sh : Shell}
    {w : Writer} {st : List UInt8 × ℕ} (he : Edits rows base sh w st)
    (hprompt : sh.promptEnabled = true) (hlen : sh.prompt.chars.length ≤ 80) :
    Edits (rows ++ [base ++ Text.cellsOf w.colorCode st.1]) sh.prompt.chars
      (sh.newline w).1 (sh.newline w).2 ([], 0) := by
  have hs := he.shows.newLine.writeColoredString sh.prompt.chars
  rw [Text.foldl_put_of_fit _ _ (by simpa using hlen)] at hs
  refine ⟨?_, rfl, le_refl 0⟩
  simpa [Shell.newline, Shell.printPrompt, hprompt, Text.cellsOf, Text.newRow, Text.lines]
    using hs

/-- A backspace with a key counted: one cell and one count are taken back. -/
theorem Edits.erase {rows : List (List ScreenChar)} {base : List ScreenChar} {sh : Shell}
    {w : Writer} {st : List UInt8 × ℕ} (he : Edits rows base sh w st) (hpos : 0 < st.2) :
    Edits rows base { sh with writtenCharCount := sh.writtenCharCount - 1 } w.eraseCell
      (st.1.dropLast, st.2 - 1) := by
  have hne : st.1 ≠ [] := List.ne_nil_of_length_pos (by have := he.count_le; omega)
  have hcur : base ++ Text.cellsOf w.colorCode st.1 ≠ [] := by simp [Text.cellsOf, hne]
  have hshow := he.shows.eraseCell hcur
  rw [List.dropLast_append_of_ne_nil (by simpa [Text.cellsOf] using hne)] at hshow
  refine ⟨by simpa [Text.cellsOf, List.map_dropLast] using hshow, by simp [he.count], ?_⟩
  simp only [List.length_dropLast]
  have := he.count_le
  omega

/-- The column is the length of the cursor's row. -/
theorem Edits.column {rows : List (List ScreenChar)} {base : List ScreenChar} {sh : Shell}
    {w : Writer} {st : List UInt8 × ℕ} (he : Edits rows base sh w st) :
    w.columnPosition = base.length + st.1.length := by
  simp [he.shows.column, Text.cellsOf]

/-- One key other than `ENTER`, when the line it leaves fits on the row. -/
theorem Edits.keyEvent {rows : List (List ScreenChar)} {base : List ScreenChar} {sh : Shell}
    {w : Writer} {st : List UInt8 × ℕ} (he : Edits rows base sh w st) (k : DecodedKey K)
    (hent : k ≠ .Unicode ENTER) (hfit : base.length + (edit codes st k).1.length ≤ 80) :
    Edits rows base (sh.keyEvent codes w k).1 (sh.keyEvent codes w k).2 (edit codes st k) := by
  by_cases hbs : isBackspace codes k
  · have hk : k = .RawKey codes.backspace ∨ k = .Unicode BACKSPACE := by
      cases k <;> simp_all [isBackspace]
    by_cases hpos : 0 < st.2
    · -- a key is counted, so a cell is typed and the cursor is past column 0
      have hcol : 0 < w.columnPosition := by
        have := he.count_le; rw [he.column]; omega
      have hcol80 : w.columnPosition ≤ 80 := he.shows.column ▸ he.shows.cur_length
      have hpos' : 0 < sh.writtenCharCount := he.count ▸ hpos
      have hev : sh.keyEvent codes w k =
          ({ sh with writtenCharCount := sh.writtenCharCount - 1 }, w.eraseCell) := by
        rcases hk with rfl | rfl
        · exact keyEvent_rawBackspace codes sh w hpos' hcol hcol80
        · exact keyEvent_unicodeBackspace codes sh w hpos' hcol hcol80
      simpa [hev, edit, hbs, hpos] using he.erase hpos
    · have hev := keyEvent_backspace_of_zero codes sh w k hk (by have := he.count; omega)
      simpa [hev, edit, hbs, hpos] using he
  · obtain ⟨bs, hne, hnl, hrender, hev⟩ :=
      written_bytes codes k (by simpa using hbs) hent
    have hfit' : base.length + st.1.length + bs.length ≤ 80 := by
      simpa [edit, hbs, hrender, Nat.add_assoc] using hfit
    simpa [hev, edit, hbs, hrender] using he.type bs hne hnl hfit'

/-- A run of keys without `ENTER` whose line fits on the row after every prefix. -/
theorem Edits.keyEvents {rows : List (List ScreenChar)} {base : List ScreenChar} {sh : Shell}
    {w : Writer} {st : List UInt8 × ℕ} (he : Edits rows base sh w st) (ks : List (DecodedKey K))
    (hent : ∀ k ∈ ks, k ≠ .Unicode ENTER)
    (hfit : ∀ p, p <+: ks → base.length + (p.foldl (edit codes) st).1.length ≤ 80) :
    Edits rows base (keyEvents codes sh w ks).1 (keyEvents codes sh w ks).2
      (ks.foldl (edit codes) st) := by
  induction ks generalizing sh w st with
  | nil => exact he
  | cons k ks ih =>
    have hk := he.keyEvent codes k (hent k List.mem_cons_self)
      (hfit [k] (List.prefix_iff_eq_take.mpr rfl))
    rw [keyEvents_cons, List.foldl_cons]
    exact ih hk (fun k' hk' => hent k' (List.mem_cons_of_mem k hk'))
      (fun p hp => by simpa using hfit (k :: p) (List.cons_prefix_cons.mpr ⟨rfl, hp⟩))

/-- `Shell::init` from any writer whose column is at most 80 leaves the column at most 80 and
the cursor's row blank from the cursor on: there a line starts. -/
theorem init_starts_line (sh : Shell) (w : Writer) (hcol : w.columnPosition ≤ 80) :
    (sh.init w).columnPosition ≤ 80 ∧
      ∀ c, (sh.init w).columnPosition ≤ c → c < 80 →
        (sh.init w).buffer 24 c = (sh.init w).blank := by
  -- before the prompt, the writer shows the text read off its buffer
  have hs : ∃ T, Shows (if !w.isCurrentRowClear then w.newLine else w) T := by
    by_cases hclear : w.isCurrentRowClear
    · simp only [hclear, Bool.not_true, Bool.false_eq_true, if_false]
      exact ⟨_, shows_ofBuffer w hcol
        (fun c _ hc => (Writer.isCurrentRowClear_iff w).mp hclear c hc)⟩
    · simp only [hclear, Bool.not_false, if_true]
      refine ⟨_, shows_ofBuffer w.newLine (by simp) (fun c _ hc => ?_)⟩
      rw [Writer.newLine_apply w 24 c hc]
      simp
  obtain ⟨T, hT⟩ := hs
  have hp := hT.writeColoredString sh.prompt.chars
  exact ⟨hp.column ▸ hp.cur_length, hp.blank_past_cursor⟩

/-- Any writer whose column is at most 80, with its cursor's row blank from the cursor on,
shows its first cells and no typed cell; with no key counted this is the start of a line. -/
theorem edits_start (sh : Shell) (w : Writer) (h0 : sh.writtenCharCount = 0)
    (hcol : w.columnPosition ≤ 80)
    (hblank : ∀ c, w.columnPosition ≤ c → c < 80 → w.buffer 24 c = w.blank) :
    Edits (Text.ofBuffer w.buffer w.columnPosition).rows
      (Text.ofBuffer w.buffer w.columnPosition).cur sh w ([], 0) :=
  ⟨by simpa [Text.cellsOf] using shows_ofBuffer w hcol hblank, h0, le_refl 0⟩

/-- From the start of a line on `w₀`: the rows above are kept, the cursor's row is its first
cells and then the typed cells, and the column and the count are the line's. -/
theorem Edits.read {w₀ w : Writer} {sh : Shell} {st : List UInt8 × ℕ}
    (he : Edits (Text.ofBuffer w₀.buffer w₀.columnPosition).rows
      (Text.ofBuffer w₀.buffer w₀.columnPosition).cur sh w st)
    (hcolor : w.colorCode = w₀.colorCode) :
    (∀ r < 24, ∀ c < 80, w.buffer r c = w₀.buffer r c) ∧
      (∀ c < 80, w.buffer 24 c = if c < w₀.columnPosition then w₀.buffer 24 c
        else (Text.cellsOf w₀.colorCode st.1).getD (c - w₀.columnPosition) w₀.blank) ∧
      w.columnPosition = w₀.columnPosition + st.1.length ∧ sh.writtenCharCount = st.2 := by
  have hblank : w.blank = w₀.blank := by simp [Writer.blank, hcolor]
  have hbase : (Text.ofBuffer w₀.buffer w₀.columnPosition).cur.length = w₀.columnPosition := by
    simp [Text.ofBuffer]
  refine ⟨?_, ?_, by rw [he.column, hbase], he.count⟩
  · intro r hr c hc
    rw [he.shows.cells r (by omega) c hc, Text.render_ofBuffer_row _ _ _ _ hr hc]
  · intro c hc
    have hrows : 24 ≤ (⟨(Text.ofBuffer w₀.buffer w₀.columnPosition).rows,
        (Text.ofBuffer w₀.buffer w₀.columnPosition).cur ++ Text.cellsOf w.colorCode st.1⟩ :
          Text).rows.length := by simp [Text.ofBuffer]
    rw [he.shows.cells 24 (by omega) c hc, Text.render_last hrows, getD_append_eq, hbase,
      hcolor, hblank]
    by_cases hcc : c < w₀.columnPosition
    · simp [hcc, Text.ofBuffer, List.getD_eq_getElem?_getD]
    · rw [if_neg hcc, if_neg hcc]

theorem edits_keyEvents (sh : Shell) (w : Writer) (ks : List (DecodedKey K))
    (h0 : sh.writtenCharCount = 0) (hcol : w.columnPosition ≤ 80)
    (hblank : ∀ c, w.columnPosition ≤ c → c < 80 → w.buffer 24 c = w.blank)
    (hent : ∀ k ∈ ks, k ≠ .Unicode ENTER)
    (hfit : ∀ p, p <+: ks → w.columnPosition + (p.foldl (edit codes) ([], 0)).1.length ≤ 80) :
    Edits (Text.ofBuffer w.buffer w.columnPosition).rows
      (Text.ofBuffer w.buffer w.columnPosition).cur (keyEvents codes sh w ks).1
      (keyEvents codes sh w ks).2 (ks.foldl (edit codes) ([], 0)) := by
  have hbase : (Text.ofBuffer w.buffer w.columnPosition).cur.length = w.columnPosition := by
    simp [Text.ofBuffer]
  exact (edits_start sh w h0 hcol hblank).keyEvents codes ks hent
    (fun p hp => by rw [hbase]; exact hfit p hp)

/-! ## What the line holds -/

/-- For any writer at column at most 80 whose cursor's row is blank from the cursor on, with no
key counted, and any keys other than `ENTER` whose typed cells fit on the row after every
prefix: the rows above are kept, the cursor's row holds its first cells and then the typed
cells of `edit`, and the column and the count are those of `edit`. -/
theorem keyEvents_edit_cells (sh : Shell) (w : Writer) (ks : List (DecodedKey K))
    (h0 : sh.writtenCharCount = 0) (hcol : w.columnPosition ≤ 80)
    (hblank : ∀ c, w.columnPosition ≤ c → c < 80 → w.buffer 24 c = w.blank)
    (hent : ∀ k ∈ ks, k ≠ .Unicode ENTER)
    (hfit : ∀ p, p <+: ks → w.columnPosition + (p.foldl (edit codes) ([], 0)).1.length ≤ 80) :
    (∀ r < 24, ∀ c < 80, (keyEvents codes sh w ks).2.buffer r c = w.buffer r c) ∧
      (∀ c < 80, (keyEvents codes sh w ks).2.buffer 24 c =
        if c < w.columnPosition then w.buffer 24 c
        else (Text.cellsOf w.colorCode (ks.foldl (edit codes) ([], 0)).1).getD
          (c - w.columnPosition) w.blank) ∧
      (keyEvents codes sh w ks).2.columnPosition =
        w.columnPosition + (ks.foldl (edit codes) ([], 0)).1.length ∧
      (keyEvents codes sh w ks).1.writtenCharCount = (ks.foldl (edit codes) ([], 0)).2 :=
  (edits_keyEvents codes sh w ks h0 hcol hblank hent hfit).read (keyEvents_colorCode codes sh w ks)

theorem keyEvents_edit_cells_after_init :
    let codes : KeyCodes Unit :=
      ⟨(), fun _ => [0x42, 0x61, 0x63, 0x6b, 0x73, 0x70, 0x61, 0x63, 0x65], fun _ => by simp,
        fun _ => by decide⟩
    let w₀ := WRITER fun _ _ => ⟨' '.toUInt8, ColorCode.new .Yellow .Black⟩
    let w := SHELL.init w₀
    let ks : List (DecodedKey Unit) := [.Unicode 'é', .RawKey (), .Unicode 'a']
    SHELL.writtenCharCount = 0 ∧ w.columnPosition ≤ 80 ∧
      (∀ c, w.columnPosition ≤ c → c < 80 → w.buffer 24 c = w.blank) ∧
      (∀ k ∈ ks, k ≠ .Unicode ENTER) ∧
      (∀ p, p <+: ks → w.columnPosition + (p.foldl (edit codes) ([], 0)).1.length ≤ 80) ∧
      ((∀ r < 24, ∀ c < 80, (keyEvents codes SHELL w ks).2.buffer r c = w.buffer r c) ∧
      (∀ c < 80, (keyEvents codes SHELL w ks).2.buffer 24 c =
        if c < w.columnPosition then w.buffer 24 c
        else (Text.cellsOf w.colorCode (ks.foldl (edit codes) ([], 0)).1).getD
          (c - w.columnPosition) w.blank) ∧
      (keyEvents codes SHELL w ks).2.columnPosition =
        w.columnPosition + (ks.foldl (edit codes) ([], 0)).1.length ∧
      (keyEvents codes SHELL w ks).1.writtenCharCount = (ks.foldl (edit codes) ([], 0)).2) := by
  intro codes w₀ w ks
  have h0 : SHELL.writtenCharCount = 0 := rfl
  have hinit := init_starts_line SHELL w₀ (by decide)
  have hent : ∀ k ∈ ks, k ≠ .Unicode ENTER := by decide
  have hfit : ∀ p, p <+: ks → w.columnPosition + (p.foldl (edit codes) ([], 0)).1.length ≤ 80 := by
    have h : ∀ p ∈ ks.inits, w.columnPosition + (p.foldl (edit codes) ([], 0)).1.length ≤ 80 := by
      decide
    exact fun p hp => h p ((List.mem_inits _ _).mpr hp)
  exact ⟨h0, hinit.1, hinit.2, hent, hfit,
    keyEvents_edit_cells codes SHELL w ks h0 hinit.1 hinit.2 hent hfit⟩

/-- A key drawn as `n` cells and then a backspace, from the start of a line: the backspace
cancels the key and the count is back to zero, but only the key's last cell is erased: the
column stays `n - 1` past the start, with the key's first `n - 1` cells before it. -/
theorem backspace_after_key_keeps_cells (sh : Shell) (w : Writer) (k : DecodedKey K)
    (h0 : sh.writtenCharCount = 0)
    (hblank : ∀ c, w.columnPosition ≤ c → c < 80 → w.buffer 24 c = w.blank)
    (hk : isBackspace codes k = false) (hent : k ≠ .Unicode ENTER)
    (hfit : w.columnPosition + (render codes k).length ≤ 80) :
    reduce codes [k, .Unicode BACKSPACE] = [] ∧
      (keyEvents codes sh w [k, .Unicode BACKSPACE]).1.writtenCharCount = 0 ∧
      (keyEvents codes sh w [k, .Unicode BACKSPACE]).2.columnPosition =
        w.columnPosition + (render codes k).length - 1 ∧
      ∀ c < 80, (keyEvents codes sh w [k, .Unicode BACKSPACE]).2.buffer 24 c =
        if c < w.columnPosition then w.buffer 24 c
        else (Text.cellsOf w.colorCode (render codes k).dropLast).getD (c - w.columnPosition)
          w.blank := by
  have hbs : isBackspace codes (.Unicode BACKSPACE : DecodedKey K) = true := by
    simp [isBackspace]
  have hst : [k, .Unicode BACKSPACE].foldl (edit codes) ([], 0) =
      ((render codes k).dropLast, 0) := by
    simp [edit, hk, hbs]
  have hfit' : ∀ p, p <+: [k, .Unicode BACKSPACE] →
      w.columnPosition + (p.foldl (edit codes) ([], 0)).1.length ≤ 80 := by
    intro p hp
    rcases List.prefix_cons_iff.mp hp with rfl | ⟨t, rfl, ht⟩
    · simp; omega
    · rcases List.prefix_cons_iff.mp ht with rfl | ⟨t', rfl, ht'⟩
      · simpa [edit, hk] using hfit
      · rw [List.prefix_nil.mp ht', hst]
        simp only [List.length_dropLast]
        omega
  have hent' : ∀ k' ∈ [k, .Unicode BACKSPACE], k' ≠ .Unicode ENTER := by
    intro k' hk'
    simp only [List.mem_cons, List.not_mem_nil, or_false] at hk'
    rcases hk' with rfl | rfl
    · exact hent
    · have hne : BACKSPACE ≠ ENTER := by decide
      exact fun h => hne (DecodedKey.Unicode.inj h)
  have he := edits_keyEvents codes sh w [k, .Unicode BACKSPACE] h0 (by omega) hblank hent' hfit'
  rw [hst] at he
  obtain ⟨-, hrow, hcolumn, hcount⟩ := he.read (keyEvents_colorCode codes sh w _)
  refine ⟨by simp [reduce, cancel, hk, hbs], hcount, ?_, hrow⟩
  rw [hcolumn, List.length_dropLast]
  obtain ⟨bs, hne, -, hrender, -⟩ := written_bytes codes k hk hent
  have hlen : 0 < (render codes k).length := by
    rw [hrender, List.length_map]
    exact List.length_pos_iff.mpr hne
  omega

/-- After `Shell::init` on a blank screen the prompt `Test: ` ends at column 6; `é` is drawn as
two cells `0xfe`, and a backspace after it leaves the column at 7 with the first of them. -/
theorem backspace_after_key_keeps_cells_accent :
    let codes : KeyCodes Unit :=
      ⟨(), fun _ => [0x42, 0x61, 0x63, 0x6b, 0x73, 0x70, 0x61, 0x63, 0x65], fun _ => by simp,
        fun _ => by decide⟩
    let w₀ := WRITER fun _ _ => ⟨' '.toUInt8, ColorCode.new .Yellow .Black⟩
    let w := SHELL.init w₀
    let k : DecodedKey Unit := .Unicode 'é'
    SHELL.writtenCharCount = 0 ∧ (∀ c, w.columnPosition ≤ c → c < 80 → w.buffer 24 c = w.blank) ∧
      isBackspace codes k = false ∧ k ≠ .Unicode ENTER ∧
      w.columnPosition + (render codes k).length ≤ 80 ∧
      (reduce codes [k, .Unicode BACKSPACE] = [] ∧
      (keyEvents codes SHELL w [k, .Unicode BACKSPACE]).1.writtenCharCount = 0 ∧
      (keyEvents codes SHELL w [k, .Unicode BACKSPACE]).2.columnPosition =
        w.columnPosition + (render codes k).length - 1 ∧
      ∀ c < 80, (keyEvents codes SHELL w [k, .Unicode BACKSPACE]).2.buffer 24 c =
        if c < w.columnPosition then w.buffer 24 c
        else (Text.cellsOf w.colorCode (render codes k).dropLast).getD (c - w.columnPosition)
          w.blank) := by
  intro codes w₀ w k
  have h0 : SHELL.writtenCharCount = 0 := rfl
  have hblank := (init_starts_line SHELL w₀ (by decide)).2
  have hk : isBackspace codes k = false := by decide
  have hent : k ≠ .Unicode ENTER := by decide
  have hfit : w.columnPosition + (render codes k).length ≤ 80 := by decide
  exact ⟨h0, hblank, hk, hent, hfit,
    backspace_after_key_keeps_cells codes SHELL w k h0 hblank hk hent hfit⟩

/-! ## Keys drawn as one cell -/

theorem edit_flatMap (r : List (DecodedKey K)) (k : DecodedKey K)
    (hr : ∀ x ∈ r, (render codes x).length = 1) :
    edit codes (r.flatMap (render codes), r.length) k =
      ((cancel codes r k).flatMap (render codes), (cancel codes r k).length) := by
  unfold edit cancel
  by_cases hbs : isBackspace codes k
  · rcases List.eq_nil_or_concat' r with rfl | ⟨r', x, rfl⟩
    · simp [hbs]
    · obtain ⟨b, hb⟩ := List.length_eq_one_iff.mp (hr x (by simp))
      simp [hbs, hb]
  · simp [hbs]

theorem cancel_one (r : List (DecodedKey K)) (k : DecodedKey K)
    (hr : ∀ x ∈ r, (render codes x).length = 1)
    (hk : isBackspace codes k = false → (render codes k).length = 1) :
    ∀ x ∈ cancel codes r k, (render codes x).length = 1 := by
  intro x hx
  unfold cancel at hx
  by_cases hbs : isBackspace codes k
  · rw [if_pos hbs] at hx
    exact hr x (List.mem_of_mem_dropLast hx)
  · rw [if_neg hbs, List.mem_append, List.mem_singleton] at hx
    rcases hx with hx | rfl
    · exact hr x hx
    · exact hk (by simpa using hbs)

/-- When each key is drawn as one cell, the cells and the count of `edit` are those of the
keys that `reduce` leaves. -/
theorem foldl_edit_of_one (ks : List (DecodedKey K))
    (hone : ∀ k ∈ ks, isBackspace codes k = false → (render codes k).length = 1) :
    ks.foldl (edit codes) ([], 0) =
      ((reduce codes ks).flatMap (render codes), (reduce codes ks).length) := by
  -- the invariant: the typed cells are those of the keys left, one cell each
  suffices h : ∀ r : List (DecodedKey K), (∀ x ∈ r, (render codes x).length = 1) →
      ks.foldl (edit codes) (r.flatMap (render codes), r.length) =
        ((ks.foldl (cancel codes) r).flatMap (render codes), (ks.foldl (cancel codes) r).length) by
    simpa [reduce] using h [] (by simp)
  induction ks with
  | nil => simp
  | cons k ks ih =>
    intro r hr
    have hk := hone k List.mem_cons_self
    have hks : ∀ k' ∈ ks, isBackspace codes k' = false → (render codes k').length = 1 :=
      fun k' hk' => hone k' (List.mem_cons_of_mem k hk')
    rw [List.foldl_cons, List.foldl_cons, edit_flatMap codes r k hr]
    exact ih hks _ (cancel_one codes r k hr hk)

/-- When each key is drawn as one cell, a backspace cancels exactly the last key: from the
start of a line, with keys other than `ENTER` whose remaining keys fit on the row after every
prefix, the cursor's row holds its first cells and then the cells of the keys that `reduce`
leaves, the column is past them and the count is theirs. -/
theorem keyEvents_cancel_last_key (sh : Shell) (w : Writer) (ks : List (DecodedKey K))
    (h0 : sh.writtenCharCount = 0) (hcol : w.columnPosition ≤ 80)
    (hblank : ∀ c, w.columnPosition ≤ c → c < 80 → w.buffer 24 c = w.blank)
    (hent : ∀ k ∈ ks, k ≠ .Unicode ENTER)
    (hone : ∀ k ∈ ks, isBackspace codes k = false → (render codes k).length = 1)
    (hfit : ∀ p, p <+: ks →
      w.columnPosition + ((reduce codes p).flatMap (render codes)).length ≤ 80) :
    (∀ r < 24, ∀ c < 80, (keyEvents codes sh w ks).2.buffer r c = w.buffer r c) ∧
      (∀ c < 80, (keyEvents codes sh w ks).2.buffer 24 c =
        if c < w.columnPosition then w.buffer 24 c
        else (Text.cellsOf w.colorCode ((reduce codes ks).flatMap (render codes))).getD
          (c - w.columnPosition) w.blank) ∧
      (keyEvents codes sh w ks).2.columnPosition =
        w.columnPosition + ((reduce codes ks).flatMap (render codes)).length ∧
      (keyEvents codes sh w ks).1.writtenCharCount = (reduce codes ks).length := by
  have hedit : ∀ p, p <+: ks → p.foldl (edit codes) ([], 0) =
      ((reduce codes p).flatMap (render codes), (reduce codes p).length) :=
    fun p hp => foldl_edit_of_one codes p (fun k hk => hone k (hp.subset hk))
  have he := edits_keyEvents codes sh w ks h0 hcol hblank hent
    (fun p hp => by rw [hedit p hp]; exact hfit p hp)
  rw [hedit ks (List.prefix_refl ks)] at he
  exact he.read (keyEvents_colorCode codes sh w ks)

theorem keyEvents_cancel_last_key_typed :
    let codes : KeyCodes Unit :=
      ⟨(), fun _ => [0x42, 0x61, 0x63, 0x6b, 0x73, 0x70, 0x61, 0x63, 0x65], fun _ => by simp,
        fun _ => by decide⟩
    let w₀ := WRITER fun _ _ => ⟨' '.toUInt8, ColorCode.new .Yellow .Black⟩
    let w := SHELL.init w₀
    let ks : List (DecodedKey Unit) := [.Unicode 'h', .Unicode 'i', .RawKey (), .Unicode 'o',
      .Unicode BACKSPACE, .Unicode BACKSPACE, .Unicode BACKSPACE]
    SHELL.writtenCharCount = 0 ∧ w.columnPosition ≤ 80 ∧
      (∀ c, w.columnPosition ≤ c → c < 80 → w.buffer 24 c = w.blank) ∧
      (∀ k ∈ ks, k ≠ .Unicode ENTER) ∧
      (∀ k ∈ ks, isBackspace codes k = false → (render codes k).length = 1) ∧
      (∀ p, p <+: ks →
        w.columnPosition + ((reduce codes p).flatMap (render codes)).length ≤ 80) ∧
      ((∀ r < 24, ∀ c < 80, (keyEvents codes SHELL w ks).2.buffer r c = w.buffer r c) ∧
      (∀ c < 80, (keyEvents codes SHELL w ks).2.buffer 24 c =
        if c < w.columnPosition then w.buffer 24 c
        else (Text.cellsOf w.colorCode ((reduce codes ks).flatMap (render codes))).getD
          (c - w.columnPosition) w.blank) ∧
      (keyEvents codes SHELL w ks).2.columnPosition =
        w.columnPosition + ((reduce codes ks).flatMap (render codes)).length ∧
      (keyEvents codes SHELL w ks).1.writtenCharCount = (reduce codes ks).length) := by
  intro codes w₀ w ks
  have h0 : SHELL.writtenCharCount = 0 := rfl
  have hinit := init_starts_line SHELL w₀ (by decide)
  have hent : ∀ k ∈ ks, k ≠ .Unicode ENTER := by decide
  have hone : ∀ k ∈ ks, isBackspace codes k = false → (render codes k).length = 1 := by decide
  have hfit : ∀ p, p <+: ks →
      w.columnPosition + ((reduce codes p).flatMap (render codes)).length ≤ 80 := by
    have h : ∀ p ∈ ks.inits,
        w.columnPosition + ((reduce codes p).flatMap (render codes)).length ≤ 80 := by decide
    exact fun p hp => h p ((List.mem_inits _ _).mpr hp)
  exact ⟨h0, hinit.1, hinit.2, hent, hone, hfit,
    keyEvents_cancel_last_key codes SHELL w ks h0 hinit.1 hinit.2 hent hone hfit⟩

/-! ## A line printed while keys are typed -/

/-- A line printed while keys are typed, as `println!` prints through `Shell::write` once the
shell is up; the first test task's write system call prints one without end. From any writer
and shell editing a line, with the prompt enabled: text without a newline and then a newline
goes after the typed cells, the row is finished, and a new row starts with the prompt and no key
counted. The keys typed before the text are no longer counted, so no backspace can erase them:
both backspaces now change nothing. -/
theorem println_splits_line {rows : List (List ScreenChar)} {base : List ScreenChar}
    {sh : Shell} {w : Writer} {st : List UInt8 × ℕ} (he : Edits rows base sh w st)
    (s : List UInt8) (hnl : '\n'.toUInt8 ∉ s)
    (hfit : base.length + st.1.length + s.length ≤ 80) (hprompt : sh.promptEnabled = true)
    (hlen : sh.prompt.chars.length ≤ 80) :
    Edits (rows ++ [base ++ Text.cellsOf w.colorCode (st.1 ++ s.map Text.mapByte)])
        sh.prompt.chars (sh.write w (s ++ ['\n'.toUInt8])).1 (sh.write w (s ++ ['\n'.toUInt8])).2
        ([], 0) ∧
      ∀ k, isBackspace codes k = true →
        (sh.write w (s ++ ['\n'.toUInt8])).1.keyEvent codes
          (sh.write w (s ++ ['\n'.toUInt8])).2 k = sh.write w (s ++ ['\n'.toUInt8]) := by
  have hw : sh.write w (s ++ ['\n'.toUInt8]) = sh.newline (w.writeString s) := by
    rw [Shell.write_append, Shell.write_of_newline_not_mem sh w hnl, Shell.write_newline]
  -- the text is printed after the typed cells, then the line is finished
  have hn := (he.print s hnl hfit).newline hprompt hlen
  rw [Writer.writeString_colorCode] at hn
  rw [hw]
  refine ⟨hn, fun k hk => ?_⟩
  have hk' : k = .RawKey codes.backspace ∨ k = .Unicode BACKSPACE := by
    cases k <;> simp_all [isBackspace]
  exact keyEvent_backspace_of_zero codes _ _ k hk' hn.count

/-- After `Shell::init` on a blank screen, `a` and `b` typed, then the first test task's
message `TESTeee!` printed with its newline. -/
theorem println_splits_line_test_task :
    let codes : KeyCodes Unit :=
      ⟨(), fun _ => [0x42, 0x61, 0x63, 0x6b, 0x73, 0x70, 0x61, 0x63, 0x65], fun _ => by simp,
        fun _ => by decide⟩
    let w := SHELL.init (WRITER fun _ _ => ⟨' '.toUInt8, ColorCode.new .Yellow .Black⟩)
    let ks : List (DecodedKey Unit) := [.Unicode 'a', .Unicode 'b']
    let r := keyEvents codes SHELL w ks
    let st := ks.foldl (edit codes) ([], 0)
    let msg : List UInt8 := "TESTeee!".toList.map Char.toUInt8
    let T := Text.ofBuffer w.buffer w.columnPosition
    Edits T.rows T.cur r.1 r.2 st ∧ '\n'.toUInt8 ∉ msg ∧
      T.cur.length + st.1.length + msg.length ≤ 80 ∧ r.1.promptEnabled = true ∧
      r.1.prompt.chars.length ≤ 80 ∧
      (Edits (T.rows ++ [T.cur ++ Text.cellsOf r.2.colorCode (st.1 ++ msg.map Text.mapByte)])
          r.1.prompt.chars (r.1.write r.2 (msg ++ ['\n'.toUInt8])).1
          (r.1.write r.2 (msg ++ ['\n'.toUInt8])).2 ([], 0) ∧
        ∀ k, isBackspace codes k = true →
          (r.1.write r.2 (msg ++ ['\n'.toUInt8])).1.keyEvent codes
            (r.1.write r.2 (msg ++ ['\n'.toUInt8])).2 k = r.1.write r.2 (msg ++ ['\n'.toUInt8])) := by
  intro codes w ks r st msg T
  have hinit := init_starts_line SHELL
    (WRITER fun _ _ => ⟨' '.toUInt8, ColorCode.new .Yellow .Black⟩) (by decide)
  have hent : ∀ k ∈ ks, k ≠ .Unicode ENTER := by decide
  have hfit : ∀ p, p <+: ks → w.columnPosition + (p.foldl (edit codes) ([], 0)).1.length ≤ 80 := by
    have h : ∀ p ∈ ks.inits, w.columnPosition + (p.foldl (edit codes) ([], 0)).1.length ≤ 80 := by
      decide
    exact fun p hp => h p ((List.mem_inits _ _).mpr hp)
  have he : Edits T.rows T.cur r.1 r.2 st :=
    edits_keyEvents codes SHELL w ks rfl hinit.1 hinit.2 hent hfit
  have hnl : '\n'.toUInt8 ∉ msg := by decide
  have hfit' : T.cur.length + st.1.length + msg.length ≤ 80 := by decide
  have hprompt : r.1.promptEnabled = true := by decide
  have hlen : r.1.prompt.chars.length ≤ 80 := by decide
  exact ⟨he, hnl, hfit', hprompt, hlen,
    println_splits_line codes he msg hnl hfit' hprompt hlen⟩

end LeafOS.Shell

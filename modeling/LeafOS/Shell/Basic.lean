import Mathlib
import LeafOS.Vga.Writer

/-!
# The shell

`shell.rs` keeps a prompt and a count of the keys typed since the last prompt, and draws
through the global VGA writer. Its state together with the writer's is one state here; each
function returns both.

1. `DecodedKey`, `KeyCodes`: the decoded keys of `pc_keyboard`, over any type of key codes
   that has a `Backspace` and a `Debug` text for each code.
2. `Shell.init`, `Shell.write`, `Shell.writeColored`, `Shell.keyEvent`: the source's
   functions, branch for branch.
3. `keyEvent_rawBackspace`, `keyEvent_unicodeBackspace`: with the cursor past column 0, both
   backspaces blank the cell before the cursor and move onto it (`Writer.eraseCell`), though
   the source reaches that by different writer calls.
4. `write_of_newline_not_mem`: text without a newline goes through `Shell::write` as through
   `write_string`, and leaves the shell as it was.
-/

namespace LeafOS

open Vga

/-- `pc_keyboard::DecodedKey`, over a type `K` of key codes. -/
inductive DecodedKey (K : Type) where
  | RawKey (key : K)
  | Unicode (key : Char)
  deriving DecidableEq, Repr

/-- What the shell uses of `pc_keyboard::KeyCode`: the code `Backspace`, and the `Debug` text
of each code, its variant name, which is never empty and has no newline. -/
structure KeyCodes (K : Type) where
  backspace : K
  debug : K → List UInt8
  debug_ne_nil : ∀ k, debug k ≠ []
  newline_not_mem : ∀ k, '\n'.toUInt8 ∉ debug k

/-- `Shell`. -/
structure Shell where
  prompt : ColoredString
  writtenCharCount : ℕ
  promptEnabled : Bool

namespace Shell

/-- `Shell::new`. -/
def new (prompt : ColoredString) : Shell := ⟨prompt, 0, true⟩

/-- The prompt of the global `SHELL`, from the UTF-8 bytes of `"Test: "`. -/
def defaultPrompt : ColoredString :=
  ColoredString.fromString ("Test: ".toList.flatMap String.utf8EncodeChar)

/-- The global `SHELL`. -/
def SHELL : Shell := new defaultPrompt

/-- `Shell::init`: a new line unless the cursor's row is clear, then the prompt. -/
def init (sh : Shell) (w : Writer) : Writer :=
  let w := if !w.isCurrentRowClear then w.newLine else w
  w.writeColoredString sh.prompt.chars

/-- `print_prompt`. -/
def printPrompt (sh : Shell) (w : Writer) : Writer :=
  if sh.promptEnabled then w.writeColoredString sh.prompt.chars else w

/-- `Shell::newline`: a new line, the prompt if it is enabled, and no key counted. -/
def newline (sh : Shell) (w : Writer) : Shell × Writer :=
  ({ sh with writtenCharCount := 0 }, sh.printPrompt w.newLine)

/-- `Shell::write`: a newline goes through `newline`, other bytes as in `write_string`. -/
def write (sh : Shell) (w : Writer) (text : List UInt8) : Shell × Writer :=
  text.foldl (fun (sh, w) (char : UInt8) =>
    if char = '\n'.toUInt8 then sh.newline w
    else if 0x20 ≤ char ∧ char ≤ 0x7e then (sh, w.writeByte char)
    else (sh, w.writeByte 0xfe)) (sh, w)

/-- `Shell::write_colored`: printable cells keep their color, a newline prints the prompt
itself rather than through `print_prompt`. -/
def writeColored (sh : Shell) (w : Writer) (text : ColoredString) : Shell × Writer :=
  text.chars.foldl (fun (sh, w) (char : ScreenChar) =>
    if char.asciiCharacter = '\n'.toUInt8 then
      ({ sh with writtenCharCount := 0 }, w.newLine.writeColoredString sh.prompt.chars)
    else if 0x20 ≤ char.asciiCharacter ∧ char.asciiCharacter ≤ 0x7e then
      (sh, w.writeByteColored char.asciiCharacter char.colorCode)
    else (sh, w.writeByte 0xfe)) (sh, w)

/-- `BACKSPACE` of `key_event`. -/
def BACKSPACE : Char := Char.ofNat 8

/-- `ENTER` of `key_event`. -/
def ENTER : Char := Char.ofNat 10

variable {K : Type} [DecidableEq K] (codes : KeyCodes K)

/-- `Shell::key_event`. A raw `Backspace` steps back, writes a space (which steps forward)
and steps back again; a Unicode backspace steps back, or up a row from column 0, and writes a
space without moving. Any other key is written, as its `Debug` text or its UTF-8 bytes. -/
def keyEvent (sh : Shell) (w : Writer) : DecodedKey K → Shell × Writer
  | .RawKey key =>
    if key = codes.backspace then
      if 0 < sh.writtenCharCount then
        let w :=
          if 0 < w.columnPosition then
            let w := (w.setColumnPosition (w.columnPosition - 1)).writeByte ' '.toUInt8
            w.setColumnPosition (w.columnPosition - 1)
          else w
        ({ sh with writtenCharCount := sh.writtenCharCount - 1 }, w)
      else (sh, w)
    else ({ sh with writtenCharCount := sh.writtenCharCount + 1 }, w.writeString (codes.debug key))
  | .Unicode key =>
    if key = BACKSPACE then
      if 0 < sh.writtenCharCount then
        let w :=
          if 0 < w.columnPosition then w.setColumnPosition (w.columnPosition - 1)
          else w.oldLine.setColumnPosition (bufferWidth - 1)
        ({ sh with writtenCharCount := sh.writtenCharCount - 1 }, w.setByte ' '.toUInt8)
      else (sh, w)
    else if key = ENTER then sh.newline w
    else
      ({ sh with writtenCharCount := sh.writtenCharCount + 1 },
        w.writeString (String.utf8EncodeChar key))

/-- The keyboard handler's calls of `key_event`, one per decoded key. -/
def keyEvents (sh : Shell) (w : Writer) (ks : List (DecodedKey K)) : Shell × Writer :=
  ks.foldl (fun (sh, w) k => sh.keyEvent codes w k) (sh, w)

@[simp] theorem keyEvents_nil (sh : Shell) (w : Writer) :
    keyEvents codes sh w [] = (sh, w) := rfl

@[simp] theorem keyEvents_cons (sh : Shell) (w : Writer) (k : DecodedKey K)
    (ks : List (DecodedKey K)) :
    keyEvents codes sh w (k :: ks) =
      keyEvents codes (sh.keyEvent codes w k).1 (sh.keyEvent codes w k).2 ks := rfl

end Shell

namespace Vga.Writer

/-- Both backspaces of `key_event`, from a column past 0: the cell before the cursor becomes
blank and the cursor moves onto it. -/
def eraseCell (w : Writer) : Writer :=
  { w with buffer := w.buffer.set 24 (w.columnPosition - 1) w.blank
           columnPosition := w.columnPosition - 1 }

@[simp] theorem eraseCell_colorCode (w : Writer) : w.eraseCell.colorCode = w.colorCode := rfl

@[simp] theorem eraseCell_columnPosition (w : Writer) :
    w.eraseCell.columnPosition = w.columnPosition - 1 := rfl

end Vga.Writer

namespace Shell

variable {K : Type} [DecidableEq K] (codes : KeyCodes K)

theorem keyEvent_rawBackspace (sh : Shell) (w : Writer) (hcount : 0 < sh.writtenCharCount)
    (hcol : 0 < w.columnPosition) (hw : w.columnPosition ≤ 80) :
    sh.keyEvent codes w (.RawKey codes.backspace) =
      ({ sh with writtenCharCount := sh.writtenCharCount - 1 }, w.eraseCell) := by
  have hput := Writer.putCell_of_lt (w.setColumnPosition (w.columnPosition - 1))
    ⟨' '.toUInt8, w.colorCode⟩ (by simp [Writer.setColumnPosition]; omega)
  have hsp : ' '.toUInt8 ≠ '\n'.toUInt8 := by decide
  simp only [keyEvent, if_pos, hcount, hcol, Writer.writeByte_of_ne _ hsp]
  rw [show (w.setColumnPosition (w.columnPosition - 1)).colorCode = w.colorCode from rfl, hput]
  simp [Writer.setColumnPosition, Writer.eraseCell, Writer.blank]

theorem keyEvent_unicodeBackspace (sh : Shell) (w : Writer) (hcount : 0 < sh.writtenCharCount)
    (hcol : 0 < w.columnPosition) (hw : w.columnPosition ≤ 80) :
    sh.keyEvent codes w (.Unicode BACKSPACE) =
      ({ sh with writtenCharCount := sh.writtenCharCount - 1 }, w.eraseCell) := by
  have hlt : ¬ bufferWidth ≤ w.columnPosition - 1 := by simp [bufferWidth]; omega
  have hsp : ' '.toUInt8 ≠ '\n'.toUInt8 := by decide
  simp [keyEvent, hcount, hcol, Writer.setByte, Writer.setByteColored, hlt, hsp,
    Writer.setColumnPosition, Writer.eraseCell, Writer.blank, bufferHeight]

theorem keyEvent_colorCode (sh : Shell) (w : Writer) (k : DecodedKey K) :
    (sh.keyEvent codes w k).2.colorCode = w.colorCode := by
  cases k with
  | RawKey key =>
    by_cases hkey : key = codes.backspace
    · by_cases hcount : 0 < sh.writtenCharCount
      · by_cases hcol : 0 < w.columnPosition
        · simp [keyEvent, hkey, hcount, hcol, Writer.setColumnPosition]
        · simp [keyEvent, hkey, hcount, hcol]
      · simp [keyEvent, hkey, hcount]
    · simp [keyEvent, hkey]
  | Unicode key =>
    by_cases hbs : key = BACKSPACE
    · by_cases hcount : 0 < sh.writtenCharCount
      · by_cases hcol : 0 < w.columnPosition
        · simp [keyEvent, hbs, hcount, hcol, Writer.setColumnPosition]
        · simp [keyEvent, hbs, hcount, hcol, Writer.setColumnPosition]
      · simp [keyEvent, hbs, hcount]
    · by_cases hent : key = ENTER
      · have hne : ENTER ≠ BACKSPACE := by decide
        subst hent
        simp only [keyEvent, hne, if_false, if_true, newline, printPrompt]
        split <;> simp
      · simp [keyEvent, hbs, hent]

theorem keyEvents_colorCode (sh : Shell) (w : Writer) (ks : List (DecodedKey K)) :
    (keyEvents codes sh w ks).2.colorCode = w.colorCode := by
  induction ks generalizing sh w with
  | nil => rfl
  | cons k ks ih => rw [keyEvents_cons, ih, keyEvent_colorCode]

theorem keyEvent_backspace_of_zero (sh : Shell) (w : Writer) (k : DecodedKey K)
    (hk : k = .RawKey codes.backspace ∨ k = .Unicode BACKSPACE) (hcount : sh.writtenCharCount = 0) :
    sh.keyEvent codes w k = (sh, w) := by
  rcases hk with rfl | rfl <;> simp [keyEvent, hcount]

theorem keyEvent_rawKey (sh : Shell) (w : Writer) (key : K) (hkey : key ≠ codes.backspace) :
    sh.keyEvent codes w (.RawKey key) =
      ({ sh with writtenCharCount := sh.writtenCharCount + 1 },
        w.writeString (codes.debug key)) := by
  simp [keyEvent, hkey]

theorem keyEvent_unicode (sh : Shell) (w : Writer) (key : Char) (hbs : key ≠ BACKSPACE)
    (hent : key ≠ ENTER) :
    sh.keyEvent codes w (.Unicode key) =
      ({ sh with writtenCharCount := sh.writtenCharCount + 1 },
        w.writeString (String.utf8EncodeChar key)) := by
  simp [keyEvent, hbs, hent]

/-! ## Printing through the shell -/

theorem write_append (sh : Shell) (w : Writer) (s t : List UInt8) :
    sh.write w (s ++ t) = (sh.write w s).1.write (sh.write w s).2 t := by
  simp only [write, List.foldl_append]

theorem write_newline (sh : Shell) (w : Writer) : sh.write w ['\n'.toUInt8] = sh.newline w := by
  simp [write]

/-- Text without a newline goes through `Shell::write` as through `write_string`, and the
shell is unchanged. -/
theorem write_of_newline_not_mem (sh : Shell) (w : Writer) {text : List UInt8}
    (hnl : '\n'.toUInt8 ∉ text) : sh.write w text = (sh, w.writeString text) := by
  induction text generalizing w with
  | nil => rfl
  | cons b text ih =>
    have hb : b ≠ '\n'.toUInt8 := fun h => hnl (h ▸ List.mem_cons_self)
    have hrest : '\n'.toUInt8 ∉ text := fun h => hnl (List.mem_cons_of_mem b h)
    -- the first byte is written as `write_string` writes it: itself or `0xfe`
    have hfirst : sh.write w [b] =
        (sh, w.writeByte (if Writer.printableOrNewline b then b else 0xfe)) := by
      by_cases hp : 0x20 ≤ b ∧ b ≤ 0x7e
      · simp [write, Writer.printableOrNewline, hb, hp]
      · simp [write, Writer.printableOrNewline, hb, hp]
    rw [show b :: text = [b] ++ text from rfl, write_append, hfirst, ih _ hrest,
      List.singleton_append, Writer.writeString_cons]

end Shell

end LeafOS

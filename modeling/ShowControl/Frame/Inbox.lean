import ShowControl.Frame.Basic

/-!
# Taking frames out of a stream

Bytes arrive in pieces of any size and wait in an inbox until a line feed completes a frame. The
inbox remembers how far it has looked, so that no byte is looked at twice while a long line grows.
A carriage return before the line feed is dropped and lines without content are passed over. A line
over the limit ends the reading: it is reported, again and again, and stays where it is.
-/

namespace ShowControl

/-- What is found at the front of an inbox. -/
inductive Found where
  /-- No complete line. -/
  | nothing
  /-- The next line that has content. -/
  | line (text : ByteArray)
  /-- A line over the limit; so much of it has been received. -/
  | tooLarge (size : Nat)

/-- The first line feed among the next `count` bytes from a position on. -/
def findLineFeed (bytes : ByteArray) (position : Nat) : Nat → Option Nat
  | 0 => none
  | count + 1 =>
    if h : position < bytes.size then
      if bytes[position] = lineFeed then some position
      else findLineFeed bytes (position + 1) count
    else none

theorem findLineFeed_bounds {bytes : ByteArray} {position count found : Nat}
    (h : findLineFeed bytes position count = some found) :
    position ≤ found ∧ found < bytes.size := by
  induction count generalizing position with
  | zero => simp [findLineFeed] at h
  | succ count ih =>
    unfold findLineFeed at h
    split at h
    · split at h
      · cases h; omega
      · have := ih h; omega
    · simp at h

/-- A line without the carriage return that may end it. -/
def dropCarriageReturn (text : ByteArray) : ByteArray :=
  if h : 0 < text.size then
    if text[text.size - 1] = carriageReturn then text.extract 0 (text.size - 1) else text
  else text

/-- Where the reading of some bytes stands: what comes before `start` has been taken, and among the
next `scanned` bytes there is no line feed. -/
structure Cursor where
  start : Nat
  scanned : Nat

/-- The next line with content, and where the reading stands after it. -/
def Cursor.next (bytes : ByteArray) (c : Cursor) : Cursor × Found :=
  let position := c.start + c.scanned
  match h : findLineFeed bytes position (bytes.size - position) with
  | none =>
    let size := bytes.size - c.start
    if maxFrameSize < size then (c, .tooLarge size) else ({ c with scanned := size }, .nothing)
  | some found =>
    let size := found - c.start
    if maxFrameSize < size then ({ c with scanned := 0 }, .tooLarge size)
    else
      let text := dropCarriageReturn (bytes.extract c.start found)
      if text.isEmpty then Cursor.next bytes ⟨found + 1, 0⟩ else (⟨found + 1, 0⟩, .line text)
termination_by bytes.size - c.start
decreasing_by
  have := findLineFeed_bounds h
  omega

/-- Taking a line moves the cursor forward within the bytes. -/
theorem Cursor.start_next {bytes : ByteArray} {c c' : Cursor} {text : ByteArray}
    (h : c.next bytes = (c', .line text)) : c.start < c'.start ∧ c'.start ≤ bytes.size := by
  fun_induction Cursor.next bytes c with
  | case1 => simp at h
  | case2 => simp at h
  | case3 => simp at h
  | case4 c position found hfound size small text' blank ih =>
    have := findLineFeed_bounds hfound
    have := ih h
    simp only at this
    omega
  | case5 c position found hfound size small text' content =>
    have := findLineFeed_bounds hfound
    simp only [Prod.mk.injEq] at h
    rw [← h.1]
    simp only
    omega

/-- All lines with content, behind those already taken, which are last first. -/
def Cursor.drain (bytes : ByteArray) (c : Cursor) (taken : List ByteArray) :
    Cursor × List ByteArray × Option FrameTooLarge :=
  match _h : c.next bytes with
  | (c, .nothing) => (c, taken.reverse, none)
  | (c, .tooLarge size) => (c, taken.reverse, some ⟨size⟩)
  | (c', .line text) => Cursor.drain bytes c' (text :: taken)
termination_by bytes.size - c.start
decreasing_by
  have := Cursor.start_next _h
  omega

/-- The bytes of a stream that have been received and not been taken. -/
structure Inbox where
  /-- The bytes. -/
  buffer : ByteArray := .empty
  /-- So many of them are known to hold no line feed. -/
  scanned : Nat := 0

namespace Inbox

/-- More bytes arrive. -/
def append (i : Inbox) (bytes : ByteArray) : Inbox := { i with buffer := i.buffer ++ bytes }

/-- The inbox as a cursor leaves it. -/
def moveTo (i : Inbox) (c : Cursor) : Inbox :=
  { buffer := i.buffer.extract c.start i.buffer.size, scanned := c.scanned }

/-- Takes the next line with content. -/
def next (i : Inbox) : Inbox × Found :=
  let (c, found) := Cursor.next i.buffer ⟨0, i.scanned⟩
  (i.moveTo c, found)

/-- Takes the next line with content at the end of the stream. An unfinished line is dropped. -/
def nextAtEnd (i : Inbox) : Inbox × Found :=
  match i.next with
  | (_, .nothing) => ({}, .nothing)
  | other => other

/-- Takes all lines with content, and tells whether a line over the limit follows them. -/
def drain (i : Inbox) : Inbox × List ByteArray × Option FrameTooLarge :=
  let (c, lines, oversized) := Cursor.drain i.buffer ⟨0, i.scanned⟩ []
  (i.moveTo c, lines, oversized)

/-- Writes the frame of a message behind the bytes, unless it is too large. -/
def write (i : Inbox) (m : Message) : Except FrameTooLarge Inbox :=
  match m.line? with
  | .error e => .error e
  | .ok line => .ok (i.append (line.toUTF8.push lineFeed))

end Inbox

end ShowControl

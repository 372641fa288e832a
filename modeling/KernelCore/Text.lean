/-!
# Text

Number formats, padding and bounded writing, as the kernel's reports and log lines use them.

Lengths are of two kinds. A column is as wide as its number of characters, and padding counts
those. Storage is counted in bytes of the UTF-8 encoding: a name has a fixed number of bytes, and
a `Sink` may accept only so many. A text that does not fit is cut between characters, so what is
stored is always a text again.
-/

namespace KernelCore

namespace Text

/-- A number in lower-case hexadecimal with the usual two-character mark in front. -/
def hex (number : Nat) : String :=
  "0x" ++ String.ofList (Nat.toDigits 16 number)

def blanks (count : Nat) : String :=
  String.ofList (List.replicate count ' ')

/-- The text at the left end of a column of the given width. -/
def padRight (width : Nat) (text : String) : String :=
  text ++ blanks (width - text.length)

/-- The text at the right end of a column of the given width. -/
def padLeft (width : Nat) (text : String) : String :=
  blanks (width - text.length) ++ text

/-- The text in the middle of a column; an odd blank goes to its right. -/
def padBoth (width : Nat) (text : String) : String :=
  let spare := width - text.length
  blanks (spare / 2) ++ text ++ blanks (spare - spare / 2)

/-- Leading characters up to the first one whose encoding exceeds the room that is left. -/
def takeFitting : (room : Nat) → List Char → List Char
  | _, [] => []
  | room, first :: rest =>
      if first.utf8Size ≤ room then first :: takeFitting (room - first.utf8Size) rest else []

/-- The leading characters of a text that fit into `room` bytes. -/
def cut (room : Nat) (text : String) : String :=
  String.ofList (takeFitting room text.toList)

end Text

/-- A writer of text with an optional limit on the bytes it accepts. -/
structure Sink where
  /-- Bytes that may still be written, if there is a limit. -/
  room : Option Nat := none
  /-- Everything accepted so far. -/
  text : String := ""
  /-- Whether some character has been refused. -/
  failed : Bool := false
  deriving DecidableEq, Repr

namespace Sink

/-- A sink that accepts at most `limit` bytes, or any number. -/
def ofLimit (limit : Option Nat) : Sink :=
  { room := limit }

/-- Writes as much of the text as fits, and says whether that was all of it. Once a character has
been refused, every further character is refused as well. -/
def write (sink : Sink) (text : String) : Bool × Sink :=
  if text = "" then
    (true, sink)
  else if sink.failed then
    (false, sink)
  else
    match sink.room with
    | none => (true, { sink with text := sink.text ++ text })
    | some room =>
        let accepted := Text.cut room text
        let complete := accepted = text
        (complete,
          { room := some (room - accepted.utf8ByteSize)
            text := sink.text ++ accepted
            failed := !complete })

end Sink

end KernelCore

/-!
# The serial line

What the line carries for the bytes that are written to it. The driver of the line renders a
backspace and a delete as the three bytes that rub a character out on a terminal, and sends every
other byte as it is.
-/

namespace KernelCore.Serial

/-- The bytes on the line for one byte that is written. -/
def send (byte : UInt8) : List UInt8 :=
  if byte = 8 ∨ byte = 127 then [8, 32, 8] else [byte]

/-- The bytes on the line for a sequence of bytes that is written. -/
def transmit (bytes : List UInt8) : List UInt8 :=
  bytes.flatMap send

/-- The bytes on the line for a text. -/
def transmitText (text : String) : List UInt8 :=
  transmit text.toUTF8.toList

/-- The bytes on the line for a text and the end of its line. -/
def transmitLine (text : String) : List UInt8 :=
  transmitText (text ++ "\n")

end KernelCore.Serial

import MixMachine.Image.Text
import MixMachine.Json.Machine
import MixMachine.Json.Reader
import MixMachine.Json.Writer

/-!
# Image files

An image is kept in a document or in the written form of images. The name of a
file tells which: a document has the extension `json`, in letters of any case.

How a document is laid out as text does not matter to an image, so the reader and
the writer of documents are a parameter, `Json.Format`.
-/

namespace MixMachine

/-- A way to write documents as texts and to read them. -/
structure Json.Format where
  read? : String → Option Json
  write : Json → String

/-- Documents in several lines. -/
def Json.Format.lines : Json.Format :=
  ⟨fun text => Json.parse? text.toList, Json.pretty⟩

namespace Image

/-- Reads an image from a document. Every address must be one of a cell; those of
the words are checked first, in order, and then the start. -/
def readDocument (format : Json.Format) (text : String) : Except ImageError Image :=
  match format.read? text >>= Image.ofJson? with
  | none => .error .malformedDocument
  | some image =>
    match image.firstOutside? with
    | some a => .error (.addressOutOfRange 0 a)
    | none => .ok image

/-- The image in a document. -/
def writeDocument (format : Json.Format) (image : Image) : String :=
  format.write image.toJson

/-- Reads an image from a document as a file holds it. -/
def parseDocument (text : String) : Except ImageError Image :=
  readDocument .lines text

/-- The document that a file holds for an image. -/
def document (image : Image) : String :=
  image.writeDocument .lines

/-- The last part of a path. -/
def fileName (path : List Char) : List Char :=
  (path.reverse.takeWhile (· ≠ '/')).reverse

/-- The extension of a file name: what stands behind its last dot, unless that dot
is the first character. -/
def extension? (name : List Char) : Option (List Char) :=
  let behind := (name.reverse.takeWhile (· ≠ '.')).reverse
  if behind.length + 1 < name.length then some behind else none

/-- Whether the file at a path holds a document. -/
def isDocumentPath (path : String) : Bool :=
  (extension? (fileName path.toList)).any fun e => e.map Char.toLower == ['j', 's', 'o', 'n']

/-- Reads the image file at a path from what the file holds, which is nothing when
there is no such file. A file that is not UTF-8 text cannot be read. -/
def load (path : String) (content : Option ByteArray) : Except ImageError Image :=
  match content.bind String.fromUTF8? with
  | none => .error .unreadableFile
  | some text => if isDocumentPath path then parseDocument text else parse text

end Image

end MixMachine

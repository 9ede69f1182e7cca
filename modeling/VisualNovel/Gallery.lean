import VisualNovel.Assoc
import VisualNovel.Canvas
import VisualNovel.Fault
import VisualNovel.Files.Disk
import VisualNovel.Json.Access
import VisualNovel.Json.Shown
import VisualNovel.Log
/-!
# The gallery

The gallery shows a backdrop that fills the screen and a portrait for each character along its lower
edge, in the order in which the characters first appeared. Images are loaded when they are first
asked for and kept. An image that cannot be loaded is reported and changes nothing.

Mostly characters and images are named by texts, but any value may name one.
-/
namespace VisualNovel
open Files

/-- An image that was loaded. -/
structure Image where
  path : String
  size : Size
  converted : Bool
  deriving DecidableEq, Repr

/-- What there is to draw of an image. -/
def Image.picture (i : Image) : Picture := .image i.path i.size i.converted

/-- The size that an image file gives: two numbers with an `x` between them. -/
def imageSize? (text : String) : Option Size :=
  let s := text.toList
  let width := s.takeWhile Char.isDigit
  match s.dropWhile Char.isDigit with
  | 'x' :: height =>
    if width.isEmpty || height.isEmpty || !height.all Char.isDigit then none
    else
      some ⟨Number.ofDigits width, Number.ofDigits height⟩
  | _ => none

/-- The folders of the images, the images that were loaded, and what is shown. -/
structure Gallery where
  portraits : Files.Path
  splashes : Files.Path
  cache : List (Files.Path × Image) := []
  /-- The portrait of each character. -/
  shown : List (Json × Json) := []
  /-- The backdrop; null shows none. -/
  splash : Json := .null

/-- What an operation of the gallery does to the outside. -/
inductive GalleryEffect where
  | stroke (s : Stroke)
  | log (e : Log.Entry)

namespace Gallery

/-- The file of an image. -/
def fileName (id : Json) : Files.Path := .ofString (id.shown ++ ".png")

/-- The file of a portrait. -/
def portraitPath (g : Gallery) (id : Json) : Files.Path := g.portraits.join (fileName id)

/-- The file of a backdrop. -/
def splashPath (g : Gallery) (id : Json) : Files.Path := g.splashes.join (fileName id)

/-- Reads the image in a file. -/
def readImage (disk : Disk) (convert : Bool) (path : Files.Path) :
    Except FileError (Option Image) :=
  match disk.read path with
  | .error e => .error e
  | .ok data => .ok (((String.fromUTF8? data).bind imageSize?).map (⟨path.toString, ·, convert⟩))

/-- What came of a request for an image: whether it is there, or why it could not be opened. -/
structure Request where
  gallery : Gallery
  effects : List GalleryEffect
  found : Except Fault Bool

/-- Sees to it that an image is loaded. -/
def need (disk : Disk) (convert : Bool) (path : Files.Path) (g : Gallery) : Request :=
  if (g.cache.lookup path).isSome then ⟨g, [], .ok true⟩
  else
    match disk.exists_ path with
    | .error e => ⟨g, [], .error (.file e)⟩
    | .ok false =>
      ⟨g, [.log (Log.warning ("Image not found: " ++ path.toString))], .ok false⟩
    | .ok true =>
      let load := GalleryEffect.stroke (.imageLoad path.toString)
      match readImage disk convert path with
      | .error e => ⟨g, [load], .error (.file e)⟩
      | .ok none =>
        let report := Log.warning
          ("Could not load image " ++ path.toString ++ ": Unsupported image format")
        ⟨g, [load, .log report], .ok false⟩
      | .ok (some image) =>
        ⟨{ g with cache := Assoc.upsert path image g.cache }, [load], .ok true⟩

/-- Asks for an image, and makes a change if it is there. -/
def whenFound (change : Gallery → Except Misfit Gallery) (r : Request) : Request :=
  match r.found with
  | .ok true =>
    match change r.gallery with
    | .ok gallery => { r with gallery }
    | .error e => { r with found := .error (.misfit e) }
  | _ => r

/-- What a character is known by: a name that is the same key and is shown already, or else its own
name. -/
def known (g : Gallery) (character : Json) : Json :=
  ((Assoc.keys g.shown).find? (sameKey character)).getD character

/-- Gives a character a portrait; there are no portraits of lists and objects. -/
def assign (character id : Json) (g : Gallery) : Except Misfit Gallery :=
  if character.isKey then .ok { g with shown := Assoc.upsert (g.known character) id g.shown }
  else .error .kind

/-- Shows a portrait of a character. -/
def setExpression (disk : Disk) (convert : Bool) (character id : Json) (g : Gallery) : Request :=
  whenFound (assign character id) (g.need disk convert (g.portraitPath id))

/-- Shows a backdrop. -/
def setSplash (disk : Disk) (convert : Bool) (id : Json) (g : Gallery) : Request :=
  whenFound (fun g => .ok { g with splash := id }) (g.need disk convert (g.splashPath id))

/-- Shows nothing. -/
def clear (g : Gallery) : Gallery := { g with shown := [], splash := .null }

/-- The portrait of a character; null if it has none. -/
def expressionOf (g : Gallery) (character : Json) : Except Misfit Json :=
  if character.isKey then .ok ((g.shown.lookup (g.known character)).getD .null) else .error .kind

/-- The left edge of a portrait: in the middle of the `index`-th of `count` equal parts. -/
def portraitLeft (width : Int) (count index : Nat) (portraitWidth : Int) : Int :=
  let slot := Float.ofInt width / Float.ofNat count
  let x := slot * Float.ofNat index + (slot - Float.ofInt portraitWidth) / 2
  (Number.trunc? x).getD 0

/-- The strokes for one portrait; an image that was never loaded cannot be drawn. -/
def portraitStroke? (surface : String) (size : Size) (g : Gallery) (index : Nat) (id : Json) :
    Option Stroke :=
  (g.cache.lookup (g.portraitPath id)).map fun image =>
    .blit surface image.picture (portraitLeft size.width g.shown.length index image.size.width)
      (size.height - image.size.height)

/-- The stroke for the backdrop. -/
def splashStroke? (surface : String) (size : Size) (g : Gallery) (id : Json) : Option Stroke :=
  (g.cache.lookup (g.splashPath id)).map fun image =>
    .blit surface (.scaled image.picture size) 0 0

/-- Draws what is shown on a surface of a size; nothing if an image is missing. -/
def render? (surface : String) (size : Size) (g : Gallery) : Option (List Stroke) := do
  let backdrop ←
    match g.splash with
    | .null => some []
    | id => (g.splashStroke? surface size id).map ([·])
  let portraits ← (g.shown.zipIdx).mapM fun ((_, id), index) =>
    g.portraitStroke? surface size index id
  some (backdrop ++ portraits)

end Gallery
end VisualNovel

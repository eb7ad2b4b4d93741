/-
`downloadSourceTile` when the last bytes of the incoming file may be
lost: `QFile::write` puts bytes into a buffer, and what `QFile::close`
cannot flush is gone without the caller being told.

# What is lost

`flushed` is the number of bytes that reach the incoming file, none if
all of them do. The counter of received bytes is what it was: no check of
an answer looks at the file.
-/
import AowisMap.Terrain.SourceDownload

namespace AowisMap.Terrain

open Lib Lib.QByteArray Prog

/-- Closes the incoming file, which then holds the bytes that were
flushed. -/
def closeIncoming (flushed : Option Nat) : Prog SourceDisk Unit :=
  match flushed with
  | none => pure ()
  | some flushedBytes => always fun disk =>
      { disk with
        incomingFile := disk.incomingFile.map fun bytes =>
          bytes.take flushedBytes }

/-- The bytes of a body that are in the closed file. -/
def flushedBody (flushed : Option Nat) (body : Bytes) : Bytes :=
  match flushed with
  | none => body
  | some flushedBytes => body.take flushedBytes

variable (target : SourceTarget) (flushed : Option Nat)

/-- `downloadSourceTile` with bytes lost on closing. -/
def downloadSourceTileFlushing (attempt : Attempt) :
    Prog SourceDisk SourceLoadResult :=
  downloadSourceTileClosing target (closeIncoming flushed) attempt

/-- With nothing lost it is `downloadSourceTile`. -/
theorem downloadSourceTileFlushing_none (attempt : Attempt) :
    downloadSourceTileFlushing target none attempt
      = downloadSourceTile target attempt := rfl

end AowisMap.Terrain

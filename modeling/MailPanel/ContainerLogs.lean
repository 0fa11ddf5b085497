import MailPanel.StreamDemux
import MailPanel.Utf8Cuts

/-
The answer of `container.logs`: every frame of Docker's stream becomes a line of text.
-/

namespace MailPanel

namespace ContainerLogs

open ScriptText StreamDemux

structure LogLine where
  stream : DockerStreamKind
  data : List Char
deriving DecidableEq, Repr

/-- Raw bytes are one frame, if there are any. -/
def decodeTtyBuffer (buffer : Bytes) : List DemuxedFrame :=
  if buffer.length = 0 then [] else [⟨.stdout, buffer⟩]

def demuxDockerStream (buffer : Bytes) (tty : Bool) : List DemuxedFrame :=
  if tty then decodeTtyBuffer buffer else demuxNonTtyBuffer buffer

/-- The answer, from what Docker says of the container and from its buffer. -/
def handleContainerLogs (tty : Bool) (buffer : Bytes) : List LogLine :=
  (demuxDockerStream buffer tty).map fun frame => ⟨frame.stream, decodeUtf8 frame.data⟩

/-- The other way to a stream's text, which other operations take. -/
def joinStreamText (frames : List DemuxedFrame) (kind : DockerStreamKind) : List Char :=
  decodeUtf8 ((frames.filter fun frame => frame.stream = kind).flatMap DemuxedFrame.data)

/-- What a container has written, as Docker hands it over. -/
inductive Output where
  | framed (frames : List Frame)
  | terminal (bytes : Bytes)

namespace Output

def tty : Output → Bool
  | .framed _ => false
  | .terminal _ => true

def buffer : Output → Bytes
  | .framed frames => encodeAll frames
  | .terminal bytes => bytes

/-- The bytes of one stream, frame by frame. -/
def pieces (kind : DockerStreamKind) : Output → List Bytes
  | .framed frames => (frames.filter fun frame => frame.type.kind = kind).map Frame.payload
  | .terminal bytes => if bytes.length = 0 then [] else if kind = .stdout then [bytes] else []

def written (output : Output) (kind : DockerStreamKind) : Bytes :=
  (output.pieces kind).flatten

end Output

def textOf (kind : DockerStreamKind) (lines : List LogLine) : List Char :=
  (lines.filter fun line => line.stream = kind).flatMap LogLine.data

theorem demuxDockerStream_framed (frames : List Frame) :
    demuxDockerStream (encodeAll frames) false = frames.map Frame.reported := by
  have hreturned := (pushAll_encoded frames [encodeAll frames] [] (by simp)).2.2 rfl
  have hpush : (DockerStreamDemuxer.new.pushAll [encodeAll frames]).1.flatten =
      (DockerStreamDemuxer.new.push (encodeAll frames)).1 := by
    simp [DockerStreamDemuxer.pushAll]
  rw [hpush] at hreturned
  exact hreturned.1

/-- The frames of one stream are its pieces. -/
theorem pieces_of_demuxed (output : Output) (kind : DockerStreamKind) :
    ((demuxDockerStream output.buffer output.tty).filter fun frame => frame.stream = kind).map
      DemuxedFrame.data = output.pieces kind := by
  cases output with
  | framed frames =>
      have hframes := demuxDockerStream_framed frames
      rw [Output.buffer, Output.tty, hframes, List.filter_map, List.map_map]
      rfl
  | terminal bytes =>
      rw [Output.buffer, Output.tty, Output.pieces, demuxDockerStream, if_pos rfl,
        decodeTtyBuffer]
      split
      · rfl
      · cases kind with
        | stdout => rfl
        | stderr => rfl

theorem textOf_handleContainerLogs (output : Output) (kind : DockerStreamKind) :
    textOf kind (handleContainerLogs output.tty output.buffer) =
      (output.pieces kind).flatMap decodeUtf8 := by
  rw [← pieces_of_demuxed, textOf, handleContainerLogs, List.filter_map, List.flatMap_map,
    List.flatMap_map]
  rfl

/-- Joining the frames first keeps every character. -/
theorem joinStreamText_demuxed (output : Output) (kind : DockerStreamKind) :
    joinStreamText (demuxDockerStream output.buffer output.tty) kind =
      decodeUtf8 (output.written kind) := by
  rw [joinStreamText, Output.written, ← pieces_of_demuxed, ← List.flatMap_def]

/-- The lines of each stream keep its text exactly if no frame of the stream ends inside a
character that the next one goes on with, since every frame is decoded on its own. What the
daemon puts into one frame is up to the program that writes. -/
theorem handleContainerLogs_keeps_iff (output : Output) :
    (∀ kind, textOf kind (handleContainerLogs output.tty output.buffer) =
        decodeUtf8 (output.written kind)) ↔
      ∀ kind, KeepsCharacters (output.pieces kind) := by
  apply forall_congr'
  intro kind
  rw [textOf_handleContainerLogs, Output.written, flatMap_decodeUtf8_iff]

/-- A character of two bytes in two frames of one stream: each half is decoded on its own, and
neither is a character. -/
theorem split_character_lost : ¬∀ kind,
    textOf kind (handleContainerLogs (Output.framed [⟨.stdout, [0x63, 0xc3], by decide⟩,
        ⟨.stdout, [0xa9], by decide⟩]).tty (Output.framed
          [⟨.stdout, [0x63, 0xc3], by decide⟩, ⟨.stdout, [0xa9], by decide⟩]).buffer) =
      decodeUtf8 ((Output.framed [⟨.stdout, [0x63, 0xc3], by decide⟩,
        ⟨.stdout, [0xa9], by decide⟩]).written kind) := by
  intro hkeeps
  exact absurd (hkeeps .stdout) (by decide)

end ContainerLogs

end MailPanel

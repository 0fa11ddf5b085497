import MailPanel.ChunkReader

/-
Docker's framing of what a container writes, and the decoder that takes it apart again as the
chunks of the transport come in.
-/

namespace MailPanel

namespace StreamDemux

abbrev Bytes := List UInt8

inductive DockerStreamKind where
  | stdout
  | stderr
deriving DecidableEq, Repr

structure DemuxedFrame where
  stream : DockerStreamKind
  data : Bytes
deriving DecidableEq, Repr

def headerLength : Nat := 8

def sizeOffset : Nat := 4

def streamTypeStderr : UInt8 := 2

/-- Frames of type 0 are written on stdout. -/
def streamKindFromType (type : UInt8) : DockerStreamKind :=
  if type = streamTypeStderr then .stderr else .stdout

def readUInt8 (buffer : Bytes) (offset : Nat) : UInt8 := (buffer.drop offset).headD 0

def readUInt32BE (buffer : Bytes) (offset : Nat) : Nat :=
  ((buffer.drop offset).take 4).foldl (fun value byte => value * 256 + byte.toNat) 0

/-- The frame at the front of the buffer, once its payload has fully arrived. -/
def nextFrame (buffer : Bytes) : Option (DemuxedFrame × Bytes) :=
  if buffer.length < headerLength then none
  else
    let frameEnd := headerLength + readUInt32BE buffer sizeOffset
    if buffer.length < frameEnd then none
    else
      some (⟨streamKindFromType (readUInt8 buffer 0), (buffer.take frameEnd).drop headerLength⟩,
        buffer.drop frameEnd)

section NextFrame

variable {buffer left : Bytes} {frame : DemuxedFrame}

theorem readUInt8_append (hlong : headerLength ≤ buffer.length) (more : Bytes) :
    readUInt8 (buffer ++ more) 0 = readUInt8 buffer 0 := by
  cases buffer with
  | nil => exact absurd hlong (by decide)
  | cons byte rest => rfl

theorem readUInt32BE_append (hlong : headerLength ≤ buffer.length) (more : Bytes) :
    readUInt32BE (buffer ++ more) sizeOffset = readUInt32BE buffer sizeOffset := by
  simp only [headerLength] at hlong
  rw [readUInt32BE, readUInt32BE, sizeOffset, List.drop_append_of_le_length (by omega),
    List.take_append_of_le_length (by rw [List.length_drop]; omega)]

theorem nextFrame_eq_some (hnext : nextFrame buffer = some (frame, left)) :
    headerLength ≤ buffer.length ∧
      headerLength + readUInt32BE buffer sizeOffset ≤ buffer.length ∧
      frame = ⟨streamKindFromType (readUInt8 buffer 0),
        (buffer.take (headerLength + readUInt32BE buffer sizeOffset)).drop headerLength⟩ ∧
      left = buffer.drop (headerLength + readUInt32BE buffer sizeOffset) := by
  rw [nextFrame] at hnext
  split at hnext
  · cases hnext
  · rename_i hheader
    dsimp only at hnext
    split at hnext
    · cases hnext
    · rename_i hpayload
      cases hnext
      exact ⟨Nat.not_lt.mp hheader, Nat.not_lt.mp hpayload, rfl, rfl⟩

theorem nextFrame_shorter (hnext : nextFrame buffer = some (frame, left)) :
    left.length < buffer.length := by
  obtain ⟨hheader, -, -, rfl⟩ := nextFrame_eq_some hnext
  rw [List.length_drop]
  simp only [headerLength] at hheader ⊢
  omega

/-- What comes behind a frame that has arrived does not change it. -/
theorem nextFrame_ahead (hnext : nextFrame buffer = some (frame, left)) (more : Bytes) :
    nextFrame (buffer ++ more) = some (frame, left ++ more) := by
  obtain ⟨hheader, hpayload, rfl, rfl⟩ := nextFrame_eq_some hnext
  have hheader' : ¬ (buffer ++ more).length < headerLength := by
    rw [List.length_append]
    omega
  have hpayload' : ¬ (buffer ++ more).length <
      headerLength + readUInt32BE buffer sizeOffset := by
    rw [List.length_append]
    omega
  rw [nextFrame, if_neg hheader', readUInt8_append hheader, readUInt32BE_append hheader]
  dsimp only
  rw [if_neg hpayload', List.take_append_of_le_length hpayload,
    List.drop_append_of_le_length hpayload]

end NextFrame

def frameReader : ChunkReader UInt8 DemuxedFrame where
  next := nextFrame
  shorter := nextFrame_shorter
  ahead := nextFrame_ahead

/- The demuxer -/

/-- What has arrived of the frame that is not complete yet. -/
structure DockerStreamDemuxer where
  buffer : Bytes
deriving DecidableEq, Repr

namespace DockerStreamDemuxer

def new : DockerStreamDemuxer := ⟨[]⟩

/-- The frames that this chunk completes. -/
def push (d : DockerStreamDemuxer) (chunk : Bytes) : List DemuxedFrame × DockerStreamDemuxer :=
  ((frameReader.drain (d.buffer ++ chunk)).1, ⟨(frameReader.drain (d.buffer ++ chunk)).2⟩)

def hasPendingPartialFrame (d : DockerStreamDemuxer) : Bool := 0 < d.buffer.length

/-- The chunks pushed one after another, with what each push returned. -/
def pushAll (d : DockerStreamDemuxer) :
    List Bytes → List (List DemuxedFrame) × DockerStreamDemuxer
  | [] => ([], d)
  | chunk :: chunks =>
      ((d.push chunk).1 :: ((d.push chunk).2.pushAll chunks).1,
        ((d.push chunk).2.pushAll chunks).2)

theorem pushAll_eq_feed (d : DockerStreamDemuxer) (chunks : List Bytes) :
    (d.pushAll chunks).1.flatten = (frameReader.feed d.buffer chunks).1 ∧
      (d.pushAll chunks).2.buffer = (frameReader.feed d.buffer chunks).2 := by
  induction chunks generalizing d with
  | nil => exact ⟨rfl, rfl⟩
  | cons chunk chunks ih =>
      obtain ⟨hframes, hbuffer⟩ := ih (d.push chunk).2
      rw [pushAll, List.flatten_cons, hframes, hbuffer]
      exact ⟨rfl, rfl⟩

/-- Whatever the chunks, the frames are those of the bytes taken at once. -/
theorem pushAll_new (chunks : List Bytes) :
    (new.pushAll chunks).1.flatten = (frameReader.drain chunks.flatten).1 ∧
      (new.pushAll chunks).2.buffer = (frameReader.drain chunks.flatten).2 := by
  have hfeed : frameReader.feed [] chunks = frameReader.drain ([] ++ chunks.flatten) :=
    ChunkReader.feed_eq_drain chunks rfl
  rw [List.nil_append] at hfeed
  rw [← hfeed]
  exact new.pushAll_eq_feed chunks

end DockerStreamDemuxer

/-- A buffer that was received as a whole. -/
def demuxNonTtyBuffer (buffer : Bytes) : List DemuxedFrame :=
  (DockerStreamDemuxer.new.push buffer).1

/- Frames as Docker writes them -/

inductive StreamType where
  | stdin
  | stdout
  | stderr
deriving DecidableEq, Repr

def StreamType.byte : StreamType → UInt8
  | .stdin => 0
  | .stdout => 1
  | .stderr => 2

/-- What is written on stdin comes out on stdout. -/
def StreamType.kind : StreamType → DockerStreamKind
  | .stdin | .stdout => .stdout
  | .stderr => .stderr

structure Frame where
  type : StreamType
  payload : Bytes
  sized : payload.length < 2 ^ 32

def uint32BE (value : Nat) : Bytes :=
  [UInt8.ofNat (value / 2 ^ 24), UInt8.ofNat (value / 2 ^ 16), UInt8.ofNat (value / 2 ^ 8),
    UInt8.ofNat value]

def Frame.header (frame : Frame) : Bytes :=
  [frame.type.byte, 0, 0, 0] ++ uint32BE frame.payload.length

def Frame.encode (frame : Frame) : Bytes := frame.header ++ frame.payload

def Frame.reported (frame : Frame) : DemuxedFrame := ⟨frame.type.kind, frame.payload⟩

def encodeAll (frames : List Frame) : Bytes := frames.flatMap Frame.encode

theorem readUInt32BE_uint32BE {value : Nat} (hvalue : value < 2 ^ 32) :
    (uint32BE value).foldl (fun value byte => value * 256 + byte.toNat) 0 = value := by
  simp only [uint32BE, List.foldl_cons, List.foldl_nil, UInt8.toNat_ofNat']
  omega

section Encoded

variable (frame : Frame)

theorem Frame.header_length : frame.header.length = headerLength := rfl

theorem Frame.encode_length : frame.encode.length = headerLength + frame.payload.length := by
  rw [Frame.encode, List.length_append, frame.header_length]

theorem Frame.size (rest : Bytes) :
    readUInt32BE (frame.header ++ rest) sizeOffset = frame.payload.length := by
  have hsize : ((frame.header ++ rest).drop sizeOffset).take 4 =
      uint32BE frame.payload.length := rfl
  rw [readUInt32BE, hsize, readUInt32BE_uint32BE frame.sized]

theorem Frame.kind_eq (rest : Bytes) :
    streamKindFromType (readUInt8 (frame.header ++ rest) 0) = frame.type.kind := by
  have hbyte : readUInt8 (frame.header ++ rest) 0 = frame.type.byte := rfl
  rw [hbyte]
  cases frame.type with
  | stdin => rfl
  | stdout => rfl
  | stderr => rfl

theorem nextFrame_encode (rest : Bytes) :
    nextFrame (frame.encode ++ rest) = some (frame.reported, rest) := by
  have hheader : ¬ (frame.encode ++ rest).length < headerLength := by
    rw [List.length_append, frame.encode_length]
    omega
  have hpayload : ¬ (frame.encode ++ rest).length < headerLength + frame.payload.length := by
    rw [List.length_append, frame.encode_length]
    omega
  have hbytes : frame.encode ++ rest = frame.header ++ (frame.payload ++ rest) :=
    List.append_assoc _ _ _
  have htake : (frame.encode ++ rest).take (headerLength + frame.payload.length) =
      frame.encode := by
    rw [← frame.encode_length, List.take_left]
  have hdrop : (frame.encode ++ rest).drop (headerLength + frame.payload.length) = rest := by
    rw [← frame.encode_length, List.drop_left]
  have hsize : readUInt32BE (frame.encode ++ rest) sizeOffset = frame.payload.length := by
    rw [hbytes, frame.size]
  have hkind : streamKindFromType (readUInt8 (frame.encode ++ rest) 0) = frame.type.kind := by
    rw [hbytes, frame.kind_eq]
  have hdata : frame.encode.drop headerLength = frame.payload := by
    rw [← frame.header_length, Frame.encode, List.drop_left]
  rw [nextFrame, if_neg hheader]
  dsimp only
  rw [hsize, if_neg hpayload, htake, hdrop, hkind, hdata]
  rfl

/-- A frame that has not arrived as a whole is waited for, wherever it was cut, in its header or
in its payload. -/
theorem nextFrame_partial {begun : Bytes} (hbegun : begun <+: frame.encode)
    (hshort : begun ≠ frame.encode) : nextFrame begun = none := by
  have hlength : begun.length < headerLength + frame.payload.length := by
    rw [← frame.encode_length]
    have hle := hbegun.length_le
    have hne : begun.length ≠ frame.encode.length :=
      fun hlength => hshort (hbegun.eq_of_length hlength)
    omega
  rw [nextFrame]
  by_cases hheader : begun.length < headerLength
  · rw [if_pos hheader]
  · rw [if_neg hheader]
    obtain ⟨missing, hmissing⟩ := hbegun
    have hsize : readUInt32BE begun sizeOffset = frame.payload.length := by
      rw [← readUInt32BE_append (Nat.not_lt.mp hheader) missing, hmissing]
      exact frame.size frame.payload
    dsimp only
    rw [hsize, if_pos hlength]

end Encoded

/-- The bytes of some frames, cut anywhere: the whole frames come out, and what begins the
next one stays. -/
theorem drain_encoded (frames : List Frame) {bytes rest : Bytes}
    (hbytes : bytes ++ rest = encodeAll frames) :
    ∃ arrived, arrived ≤ frames.length ∧
      (frameReader.drain bytes).1 = (frames.take arrived).map Frame.reported ∧
      bytes = encodeAll (frames.take arrived) ++ (frameReader.drain bytes).2 ∧
      (∀ frame ∈ frames[arrived]?,
        (frameReader.drain bytes).2.length < frame.encode.length) ∧
      (arrived = frames.length → (frameReader.drain bytes).2 = []) := by
  induction frames generalizing bytes with
  | nil =>
      have hnil : bytes = [] := (List.append_eq_nil_iff.mp hbytes).1
      rw [hnil]
      exact ⟨0, Nat.le_refl 0, rfl, rfl, nofun, fun _ => rfl⟩
  | cons frame frames ih =>
      rw [encodeAll, List.flatMap_cons] at hbytes
      by_cases hshort : bytes.length < frame.encode.length
      · have hbegun : bytes <+: frame.encode :=
          List.prefix_of_prefix_length_le ⟨rest, hbytes⟩ (List.prefix_append _ _)
            (Nat.le_of_lt hshort)
        have hnext : nextFrame bytes = none := by
          apply nextFrame_partial frame hbegun
          intro heq
          rw [heq] at hshort
          exact absurd hshort (Nat.lt_irrefl _)
        have hdrain : frameReader.drain bytes = ([], bytes) := ChunkReader.drain_none hnext
        rw [hdrain]
        refine ⟨0, Nat.zero_le _, rfl, rfl, ?_, nofun⟩
        intro found hfound
        rw [← Option.some.inj hfound]
        exact hshort
      · obtain ⟨more, rfl⟩ : frame.encode <+: bytes :=
          List.prefix_of_prefix_length_le ⟨_, rfl⟩ ⟨rest, hbytes⟩ (Nat.not_lt.mp hshort)
        rw [List.append_assoc] at hbytes
        obtain ⟨arrived, harrived, hitems, hmore, hnext, hend⟩ :=
          ih (List.append_cancel_left hbytes)
        have hdrain : frameReader.drain (frame.encode ++ more) =
            (frame.reported :: (frameReader.drain more).1, (frameReader.drain more).2) :=
          ChunkReader.drain_some (nextFrame_encode frame more)
        rw [hdrain]
        refine ⟨arrived + 1, Nat.succ_le_succ harrived, ?_, ?_, hnext, ?_⟩
        · rw [List.take_succ_cons, List.map_cons, hitems]
        · rw [List.take_succ_cons, encodeAll, List.flatMap_cons, List.append_assoc]
          exact congrArg (frame.encode ++ ·) hmore
        · intro hall
          exact hend (Nat.succ.inj hall)

theorem encode_ne_nil (frame : Frame) : frame.encode ≠ [] := by
  intro hnil
  have hlength := frame.encode_length
  rw [hnil, List.length_nil, headerLength] at hlength
  omega

/-- Whole frames, and no more of the next one than begins it, are whole frames alone only if
there is nothing more. -/
theorem left_eq_nil {frames : List Frame} {arrived whole : Nat} {left : Bytes}
    (hleft : ∀ frame ∈ frames[arrived]?, left.length < frame.encode.length)
    (hend : arrived = frames.length → left = [])
    (harrived : arrived ≤ frames.length)
    (heq : encodeAll (frames.take arrived) ++ left = encodeAll (frames.take whole)) :
    left = [] := by
  induction frames generalizing arrived whole with
  | nil => exact hend (Nat.le_zero.mp harrived)
  | cons frame frames ih =>
      cases arrived with
      | zero =>
          have hshort : left.length < frame.encode.length := hleft frame rfl
          cases whole with
          | zero => simpa [encodeAll] using heq
          | succ whole =>
              have hlength := congrArg List.length heq
              simp [encodeAll] at hlength
              omega
      | succ arrived =>
          cases whole with
          | zero =>
              rw [List.take_succ_cons, encodeAll, List.flatMap_cons, List.append_assoc] at heq
              exact absurd (List.append_eq_nil_iff.mp heq).1 (encode_ne_nil frame)
          | succ whole =>
              rw [List.take_succ_cons, List.take_succ_cons, encodeAll, encodeAll,
                List.flatMap_cons, List.flatMap_cons, List.append_assoc] at heq
              exact ih hleft (fun hall => hend (congrArg Nat.succ hall))
                (Nat.le_of_succ_le_succ harrived) (List.append_cancel_left heq)

theorem encodeAll_next {frames : List Frame} {arrived : Nat} {frame : Frame}
    (hframe : frame ∈ frames[arrived]?) :
    encodeAll (frames.take arrived) ++ frame.encode <+: encodeAll frames := by
  have htake : frames.take (arrived + 1) = frames.take arrived ++ [frame] := by
    rw [List.take_add_one, hframe]
    rfl
  have hencode : encodeAll (frames.take (arrived + 1)) =
      encodeAll (frames.take arrived) ++ frame.encode := by
    rw [htake, encodeAll, encodeAll, List.flatMap_append, List.flatMap_singleton]
  refine ⟨encodeAll (frames.drop (arrived + 1)), ?_⟩
  rw [← hencode, encodeAll, encodeAll, ← List.flatMap_append, List.take_append_drop, encodeAll]

/-- However the bytes of some frames are cut into chunks, and however many of the chunks have
come in: the pushes have returned the frames whose last byte has arrived, in order, and a
partial frame is pending exactly when the bytes so far end inside one. -/
theorem pushAll_encoded (frames : List Frame) (chunks : List Bytes) (rest : Bytes)
    (hbytes : chunks.flatten ++ rest = encodeAll frames) :
    let returned := (DockerStreamDemuxer.new.pushAll chunks).1.flatten
    let demuxer := (DockerStreamDemuxer.new.pushAll chunks).2
    (∃ arrived, arrived ≤ frames.length ∧
      returned = (frames.take arrived).map Frame.reported ∧
      encodeAll (frames.take arrived) <+: chunks.flatten ∧
      ∀ frame ∈ frames[arrived]?,
        ¬ encodeAll (frames.take arrived) ++ frame.encode <+: chunks.flatten) ∧
    (demuxer.hasPendingPartialFrame = true ↔
      ∀ whole, chunks.flatten ≠ encodeAll (frames.take whole)) ∧
    (rest = [] → returned = frames.map Frame.reported ∧
      demuxer.hasPendingPartialFrame = false) := by
  intro returned demuxer
  obtain ⟨hreturned, hbuffer⟩ := DockerStreamDemuxer.pushAll_new chunks
  obtain ⟨arrived, harrived, hitems, hwhole, hnext, hend⟩ := drain_encoded frames hbytes
  have hpending : demuxer.hasPendingPartialFrame = true ↔
      ∀ whole, chunks.flatten ≠ encodeAll (frames.take whole) := by
    rw [DockerStreamDemuxer.hasPendingPartialFrame, hbuffer, decide_eq_true_eq,
      List.length_pos_iff]
    constructor
    · intro hleft whole heq
      exact hleft (left_eq_nil hnext hend harrived (hwhole.symm.trans heq))
    · intro hinside hleft
      rw [hleft, List.append_nil] at hwhole
      exact hinside arrived hwhole
  have hreported : returned = (frames.take arrived).map Frame.reported := hreturned.trans hitems
  have hmissing : ∀ frame ∈ frames[arrived]?,
      ¬ encodeAll (frames.take arrived) ++ frame.encode <+: chunks.flatten := by
    intro frame hframe hprefixed
    have hle := hprefixed.length_le
    rw [hwhole, List.length_append, List.length_append] at hle
    exact absurd (hnext frame hframe) (by omega)
  refine ⟨⟨arrived, harrived, hreported, ⟨_, hwhole.symm⟩, hmissing⟩, hpending, ?_⟩
  intro hrest
  rw [hrest, List.append_nil] at hbytes
  have hnone : demuxer.hasPendingPartialFrame = false := by
    rw [← Bool.not_eq_true, hpending]
    intro hinside
    exact hinside frames.length (by rw [List.take_length, hbytes])
  have hall : frames.take arrived = frames := by
    apply List.take_of_length_le
    by_contra hlt
    have hframe : frames[arrived] ∈ frames[arrived]? :=
      List.getElem?_eq_getElem (Nat.not_le.mp hlt)
    apply hmissing _ hframe
    rw [hbytes]
    exact encodeAll_next hframe
  exact ⟨hreported.trans (congrArg (List.map Frame.reported) hall), hnone⟩

/-- Two lines of output, an empty frame and an error between them. -/
def frames : List Frame :=
  [⟨.stdout, [0x68, 0x69], by decide⟩, ⟨.stderr, [], by decide⟩, ⟨.stderr, [0x21], by decide⟩,
    ⟨.stdout, [0x0a], by decide⟩]

/-- The frames come out whole and in order, cut within a header, within a payload and between
two frames; there are frames of both streams, and one of them is empty. -/
theorem pushAll_encoded_cut :
    (DockerStreamDemuxer.new.pushAll
        [[1, 0, 0], [0, 0, 0, 0, 2, 0x68], [0x69], [2, 0, 0, 0, 0, 0, 0, 0, 2, 0, 0, 0, 0],
          [0, 0, 1, 0x21, 1, 0, 0, 0, 0, 0, 0, 1, 0x0a]]).1.flatten =
      [⟨.stdout, [0x68, 0x69]⟩, ⟨.stderr, []⟩, ⟨.stderr, [0x21]⟩, ⟨.stdout, [0x0a]⟩] := by
  have hframes := pushAll_encoded frames
    [[1, 0, 0], [0, 0, 0, 0, 2, 0x68], [0x69], [2, 0, 0, 0, 0, 0, 0, 0, 2, 0, 0, 0, 0],
      [0, 0, 1, 0x21, 1, 0, 0, 0, 0, 0, 0, 1, 0x0a]] [] (by decide)
  exact (hframes.2.2 rfl).1

end StreamDemux

end MailPanel

import ZonedStorage.Migration.Copy
import ZonedStorage.Writing.Steps

namespace ZenFSProof

open ByteString Resumption.Prog ZenFSModel ZenFSModel.ZenFS ZenFSModel.ZenMetaLog Function Memory List

theorem headerOf_cases (f : ZoneFile) : headerOf f = 0 ∨ headerOf f = SPARSE_HEADER_SIZE := by
  simp only [headerOf]
  split
  · exact Or.inr rfl
  · exact Or.inl rfl

theorem fillBuffer_read {header wrSize padSz extentLength first count : Nat} {buffer : Memory}
    (shape : header = 0 ∨ header = SPARSE_HEADER_SIZE) (above : header ≤ first)
    (below : first + count ≤ wrSize ∨ padSz = 0) :
    (ZoneFile.fillBuffer header wrSize padSz extentLength buffer).read first count = buffer.read first count := by
  have padding : (buffer.write wrSize (replicate padSz 0)).read first count = buffer.read first count := by
    rcases below with below | nothing
    · exact read_write_outside (Or.inl below)
    · rw [nothing, replicate_zero, write_nil]
  simp only [ZoneFile.fillBuffer]
  split
  · exact padding
  · have eight : header = 8 := by
      rcases shape with none | some
      · contradiction
      · exact some
    rw [read_write_outside]
    · exact padding
    · refine Or.inr ?_
      simp only [putFixed64, nil_append, littleEndian_length]
      omega

structure Portion (blockSz header size capacity wrSize extentLength : Nat) : Prop where
  write : wrSize = header + extentLength
  some : 0 < extentLength
  part : extentLength ≤ size
  fits : alignUp blockSz wrSize ≤ capacity
  whole : alignUp blockSz wrSize < capacity → extentLength = size
  padding : Device.padSz blockSz wrSize = 0 ∨ extentLength = size

theorem Portion.of {blockSz header size capacity : Nat} (block : 512 ≤ blockSz)
    (shape : header = 0 ∨ header = SPARSE_HEADER_SIZE)
    (positive : 0 < size) (small : size + header ≤ 2 ^ 20) (room : 0 < capacity) (dvd : blockSz ∣ capacity) :
    Portion blockSz header size capacity (min ((size + header) % 2 ^ 32) capacity)
      ((min ((size + header) % 2 ^ 32) capacity + 2 ^ 32 - header) % 2 ^ 32) := by
  have eight : SPARSE_HEADER_SIZE = 8 := rfl
  have enough : blockSz ≤ capacity := Nat.le_of_dvd room dvd
  have sum : (size + header) % 2 ^ 32 = size + header := Nat.mod_eq_of_lt (by omega)
  rw [sum]
  have length : (min (size + header) capacity + 2 ^ 32 - header) % 2 ^ 32 = min (size + header) capacity - header := by
    have shift : min (size + header) capacity + 2 ^ 32 - header = min (size + header) capacity - header + 2 ^ 32 := by
      omega
    rw [shift, Nat.add_mod_right, Nat.mod_eq_of_lt (by omega)]
  rw [length]
  have fits : alignUp blockSz (min (size + header) capacity) ≤ capacity :=
    alignUp_le (by omega) (Nat.min_le_right _ _) dvd
  have least : min (size + header) capacity ≤ alignUp blockSz (min (size + header) capacity) := alignUp_ge _ _
  refine ⟨by omega, by omega, by omega, fits, by omega, ?_⟩
  by_cases last : size + header ≤ capacity
  · exact Or.inr (by omega)
  · refine Or.inl ?_
    have full : min (size + header) capacity = capacity := by omega
    rw [full, Device.padSz, if_pos (Nat.mod_eq_zero_of_dvd dvd)]

structure Divides (v : View) (stream : Bytes) (first left : Nat) : Prop where
  kept : v.Kept
  held : v.held = stream.take v.file.fileSize
  size : v.file.fileSize + left = stream.length
  rest : v.writer.buffer.read first left = stream.drop v.file.fileSize

namespace Divides

variable {v v' : View} {stream : Bytes} {first left : Nat} (divides : Divides v stream first left)

include divides

theorem spared (spares : Spares v v') : Divides v' stream first left where
  kept := spares.kept divides.kept
  held := by
    rw [spares.held divides.kept, spares.size]
    exact divides.held
  size := by
    rw [spares.size]
    exact divides.size
  rest := by
    rw [spares.writer, spares.size]
    exact divides.rest

theorem shown (spares : Spares v v') : v'.held <+: stream := View.shown (divides.spared spares).held

theorem moved (address : Nat) : Divides { v with writer := { v.writer with
    buffer := v.writer.buffer.write address (v.writer.buffer.read first left) } } stream address left where
  kept := by
    have kept := divides.kept
    exact ⟨kept.laid, kept.roomy, kept.stored, kept.file, kept.buffered, kept.header, kept.small, kept.filled⟩
  held := divides.held
  size := divides.size
  rest := by
    have moved : (v.writer.buffer.write address (v.writer.buffer.read first left)).read address
        (v.writer.buffer.read first left).length = v.writer.buffer.read first left := read_write ..
    rw [read_length] at moved
    exact moved.trans divides.rest

theorem failed (begun : left < v.writer.bufferPos) (active : v.Active) : v.Safe stream := by
  refine View.Safe.excess divides.kept active ?_
  have size := divides.size
  omega

end Divides

structure Flushing (v : View) (stream : Bytes) (left : Nat) : Prop extends
    Divides v stream (headerOf v.file) left where
  opened : Opened v
  zone : ∃ zone, v.file.activeZone = some zone
  within : left ≤ v.writer.bufferPos

structure Turned (v : View) (stream : Bytes) (zone wrSize left : Nat) : Prop extends
    Divides v stream wrSize left where
  active : v.file.activeZone = some zone
  inside : zone < v.dev.count
  placed : v.Placed
  begun : left < v.writer.bufferPos
  last : (v.dev.zones zone).capacity ≠ 0 → left = 0

theorem Turned.finished {v : View} {stream : Bytes} {zone wrSize left : Nat} (turned : Turned v stream zone wrSize left)
    (room : (v.dev.zones zone).capacity ≠ 0) : Flushing v stream left := by
  have none_left := turned.last room
  have size := turned.size
  subst none_left
  refine ⟨⟨turned.kept, turned.held, turned.size, ?_⟩, ⟨?_, turned.placed⟩, ⟨zone, turned.active⟩, Nat.zero_le _⟩
  · rw [drop_of_length_le (by omega)]
    rfl
  · intro other same
    rw [turned.active] at same
    cases same
    exact ⟨turned.inside, Nat.pos_of_ne_zero room⟩

namespace Flushing

variable {v : View} {stream : Bytes} {left : Nat}

theorem level (flushing : Flushing v stream left) (all : left = v.writer.bufferPos) : v.Level stream where
  held := flushing.held
  pending := by
    rw [View.pending, flushing.kept.header, ← all]
    exact flushing.rest
  size := by
    rw [← all]
    exact flushing.size

theorem filled (flushing : Flushing v stream left) {blockSz capacity wrSize extentLength : Nat}
    (portion : Portion blockSz (headerOf v.file) left capacity wrSize extentLength) :
    Flushing { v with writer := { v.writer with
      buffer := ZoneFile.fillBuffer (headerOf v.file) wrSize (Device.padSz blockSz wrSize) extentLength
        v.writer.buffer } } stream left := by
  refine ⟨⟨?_, flushing.held, flushing.size, ?_⟩, ⟨flushing.opened.active, flushing.opened.placed⟩, flushing.zone,
    flushing.within⟩
  · have kept := flushing.kept
    exact ⟨kept.laid, kept.roomy, kept.stored, kept.file, kept.buffered, kept.header, kept.small, kept.filled⟩
  · rw [← flushing.rest]
    dsimp only
    refine fillBuffer_read (headerOf_cases _) (Nat.le_refl _) ?_
    rcases portion.padding with none | whole
    · exact Or.inr none
    · have write := portion.write
      exact Or.inl (by omega)

theorem broken (flushing : Flushing v stream left) {zone : Nat} (active : v.file.activeZone = some zone) {bytes : Bytes}
    (fits : bytes.length ≤ (v.dev.zones zone).capacity) {k : Nat} (part : k < bytes.length)
    (dvd : v.dev.geo.blockSz ∣ k) (c : Nat) :
    View.Safe { v with dev := written v.dev zone (bytes.take k) c } stream := by
  obtain ⟨inside, _⟩ := flushing.opened.active zone active
  have size : (bytes.take k).length = k := by
    rw [length_take]
    omega
  have retains : Retains v.dev (written v.dev zone (bytes.take k) c) := by
    refine Retains.written c ?_ inside ?_
    · rw [size]
      omega
    · rw [size]
      exact dvd
  have spares : Spares v { v with dev := written v.dev zone (bytes.take k) c } := ⟨rfl, retains, rfl, rfl, rfl, rfl⟩
  refine ⟨spares.kept flushing.kept, ?_, ?_, ?_⟩
  · intro other same
    simp only [active, Option.some.injEq] at same
    subst same
    refine ⟨inside, ?_⟩
    simp only [written, update_self, size]
    omega
  · have ahead := flushing.within
    have whole := flushing.size
    simp only
    omega
  · intro whole
    have all : left = v.writer.bufferPos := by
      have size := flushing.size
      simp only at whole
      omega
    exact spares.level flushing.kept (flushing.level all)

section

variable {zone wrSize extentLength : Nat} {bytes : Bytes} (flushing : Flushing v stream left)
  (active : v.file.activeZone = some zone)
  (portion : Portion v.dev.geo.blockSz (headerOf v.file) left (v.dev.zones zone).capacity wrSize extentLength)
  (data : bytes = v.writer.buffer.read 0 (alignUp v.dev.geo.blockSz wrSize)) (c : Nat)

include flushing active portion data

theorem retains : Retains v.dev (written v.dev zone bytes c) := by
  obtain ⟨inside, _⟩ := flushing.opened.active zone active
  have size : bytes.length = alignUp v.dev.geo.blockSz wrSize := by rw [data, read_length]
  refine Retains.written c ?_ inside ?_
  · rw [size]
    exact portion.fits
  · rw [size]
    have block := v.dev.geo.sector_le
    exact alignUp_dvd (by omega) wrSize

theorem reached : (written v.dev zone bytes c).mem.read (v.file.extentStart + headerOf v.file) extentLength =
    (stream.drop v.file.fileSize).take extentLength := by
  have write := portion.write
  have part := portion.part
  have enough := alignUp_ge v.dev.geo.blockSz wrSize
  have size : bytes.length = alignUp v.dev.geo.blockSz wrSize := by rw [data, read_length]
  have whole : (written v.dev zone bytes c).mem.read (v.dev.zones zone).wp bytes.length = bytes := read_write ..
  have stored : (((written v.dev zone bytes c).mem.read (v.dev.zones zone).wp bytes.length).drop (headerOf v.file)).take
      extentLength = (written v.dev zone bytes c).mem.read ((v.dev.zones zone).wp + headerOf v.file) extentLength :=
    read_drop_take _ (by omega)
  have buffered : ((v.writer.buffer.read 0 (alignUp v.dev.geo.blockSz wrSize)).drop (headerOf v.file)).take extentLength =
      v.writer.buffer.read (0 + headerOf v.file) extentLength := read_drop_take _ (by omega)
  have first : ((v.writer.buffer.read (headerOf v.file) left).drop 0).take extentLength =
      v.writer.buffer.read (headerOf v.file + 0) extentLength := read_drop_take _ (by omega)
  rw [drop_zero, Nat.add_zero] at first
  rw [flushing.opened.placed zone active, ← flushing.rest, first, ← stored, whole, data, buffered, Nat.zero_add]

theorem pushed : contents (written v.dev zone bytes c)
    (v.file.extents ++ [⟨v.file.extentStart + headerOf v.file, extentLength, zone⟩]) =
      stream.take (v.file.fileSize + extentLength) := by
  have before : contents (written v.dev zone bytes c) v.file.extents = stream.take v.file.fileSize := by
    rw [(flushing.retains active portion data c).contents flushing.kept.laid flushing.kept.stored]
    exact flushing.held
  rw [contents_append, before, take_add, ← flushing.reached active portion data c, contents_cons]
  exact congrArg _ (append_nil _)

theorem turned {d : Device} (marked : Marked (written v.dev zone bytes c) d) : Turned { v with
      dev := d
      file := { v.file with
        extents := v.file.extents ++ [⟨v.file.extentStart + headerOf v.file, extentLength, zone⟩]
        extentStart := (d.zones zone).wp
        fileSize := v.file.fileSize + extentLength } } stream zone wrSize (left - extentLength) := by
  obtain ⟨inside, _⟩ := flushing.opened.active zone active
  have kept := flushing.kept
  have write := portion.write
  have part := portion.part
  have fits := portion.fits
  have some := portion.some
  have size : bytes.length = alignUp v.dev.geo.blockSz wrSize := by rw [data, read_length]
  have enough := alignUp_ge v.dev.geo.blockSz wrSize
  have retains := (flushing.retains active portion data c).trans marked.retains
  have laid := retains.laid kept.laid
  have start : (d.zones zone).start = (v.dev.zones zone).start := retains.layout.start zone
  have wp : (d.zones zone).wp = (v.dev.zones zone).wp + bytes.length := by
    rw [marked.wp]
    simp only [written, update_self]
  have capacity : (d.zones zone).capacity = (v.dev.zones zone).capacity - bytes.length := by
    rw [marked.capacity]
    simp only [written, update_self]
  have count : d.count = v.dev.count := retains.layout.count
  have placed := flushing.opened.placed zone active
  have begun := kept.laid.begun inside
  have held : contents d (v.file.extents ++ [⟨v.file.extentStart + headerOf v.file, extentLength, zone⟩]) =
      stream.take (v.file.fileSize + extentLength) := by
    rw [← flushing.pushed active portion data c, contents, marked.mem]
    rfl
  have stored : Stored d (v.file.extents ++ [⟨v.file.extentStart + headerOf v.file, extentLength, zone⟩]) := by
    intro e listed
    rcases mem_append.mp listed with old | new
    · exact retains.lies kept.laid (kept.stored e old)
    · rw [mem_singleton.mp new]
      refine ⟨?_, ?_, ?_⟩
      · exact Nat.lt_of_lt_of_eq inside count.symm
      · simp only
        omega
      · simp only
        omega
  have roomy : Roomy d := retains.roomy kept.laid kept.roomy
  refine ⟨⟨⟨laid, roomy, stored, kept.file, kept.buffered, kept.header, kept.small, kept.filled⟩, held, ?_, ?_⟩, active,
    ?_, ?_, ?_, ?_⟩
  · have whole := flushing.size
    simp only
    omega
  · have later : ((v.writer.buffer.read (headerOf v.file) left).drop extentLength).take (left - extentLength) =
        v.writer.buffer.read (headerOf v.file + extentLength) (left - extentLength) :=
      read_drop_take _ (by omega)
    rw [take_of_length_le (by rw [length_drop, read_length]), flushing.rest, drop_drop] at later
    simp only [write]
    exact later.symm
  · exact Nat.lt_of_lt_of_eq inside count.symm
  · intro other same
    simp only [active, Option.some.injEq] at same
    subst same
    rfl
  · have within := flushing.within
    simp only
    omega
  · intro more
    have short : alignUp v.dev.geo.blockSz wrSize < (v.dev.zones zone).capacity := by
      simp only at more
      omega
    have last := portion.whole short
    omega

end

end Flushing

end ZenFSProof

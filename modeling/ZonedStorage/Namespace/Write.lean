import ZonedStorage.Namespace.Migrate

namespace ZenFSModel

open ByteString ZenFS ZonedBlockDevice

namespace ZoneFile

def releaseActiveZone (r : Ref) (zone : Nat) : Proc ZenFS Unit := do
  let _ ← onIo (Zone.release zone)
  modifyObject r (fun f => { f with activeZone := none })

def closeActiveZone (r : Ref) : Proc ZenFS Unit := do
  match (← object r).activeZone with
  | none => pure ()
  | some zone =>
    let full := (← onIo (Device.zoneAt zone)).isFull
    let closed ← (onIo (Zone.close zone)).attempt
    releaseActiveZone r zone
    .ofExcept closed
    onZbd putOpenIOZoneToken
    if full then onZbd putActiveIOZoneToken

/-- `ZenFSMetadataWriter::Persist`, whose log line names the file. -/
def persistMetadata (r : Ref) : Proc ZenFS Unit := do
  let _ ← ZenFS.getFilename r
  syncFileMetadata r false

def closeWR (r : Ref) : Proc ZenFS Unit := do
  modifyObject r (fun f => { f with extentStart := NO_EXTENT })
  persistMetadata r
  releaseWRLock r
  closeActiveZone r

def activate (r : Ref) (zone : Nat) (fs : ZenFS) : ZenFS :=
  fs.setObject r { fs.objects r with
    activeZone := some zone
    extentStart := (fs.zbd.dev.zones zone).wp
    extentFilepos := (fs.objects r).fileSize }

def allocateNewZone (rounds : Nat) (r : Ref) : Proc ZenFS Unit := do
  let f ← object r
  match ← onZbd (allocateIOZone rounds f.lifetime f.ioType) with
  | none => .fail (Status.noSpace "Zone allocation failure\n")
  | some zone =>
    .update (activate r zone)
    persistMetadata r

def pushBack (r : Ref) (e : ZoneExtent) : Proc ZenFS Unit :=
  modifyObject r (fun f => { f with extents := f.extents ++ [e] })

def pushExtent (r : Ref) : Proc ZenFS Unit := do
  let f ← object r
  match f.activeZone with
  | none => pure ()
  | some zone =>
    let length := (f.fileSize + 2 ^ 64 - f.extentFilepos) % 2 ^ 64
    if length = 0 then pure ()
    else
      let e : ZoneExtent := ⟨f.extentStart, length, zone⟩
      pushBack r e
      .update (fun fs => (fs.chargeExtents [e]).setObject r { fs.objects r with
        extentStart := (fs.zbd.dev.zones zone).wp
        extentFilepos := (fs.objects r).fileSize })

def published (r : Ref) (e : ZoneExtent) (fs : ZenFS) : ZenFS :=
  (fs.chargeExtents [e]).setObject r { fs.objects r with
    extentStart := (fs.zbd.dev.zones e.zone).wp
    fileSize := (fs.objects r).fileSize + e.length }

/-- The buffer of a writer as it is written: zeroes up to the next block, and before the data, if it
    has a header, the length of the extent. -/
def fillBuffer (header wrSize padSz extentLength : Nat) (buffer : Memory) : Memory :=
  let cleared := buffer.write wrSize (List.replicate padSz 0)
  if header = 0 then cleared else cleared.write 0 (putFixed64 [] extentLength)

def modifyWriter (w : Nat) (change : Writer → Writer) : Proc ZenFS Unit := .update (fun fs =>
  { fs with writers := Function.update fs.writers w (change (fs.writers w)) })

/-- The loop of `BufferedAppend` and `SparseAppend`, whose sizes are `uint32_t`. `header` bytes before the
    data are written with it. -/
def bufferLoop (header w : Nat) (r : Ref) : Nat → Nat → Proc ZenFS Unit
  | _, 0 => pure ()
  | 0, _ + 1 => .hang
  | rounds + 1, left + 1 => do
    match (← object r).activeZone with
    | none => .hang
    | some zone =>
      let capacity := (← onIo (Device.zoneAt zone)).capacity
      let blockSz ← .read (fun fs => fs.zbd.dev.geo.blockSz)
      let wrSize := min ((left + 1 + header) % 2 ^ 32) capacity
      let padSz := Device.padSz blockSz wrSize
      let extentLength := (wrSize + 2 ^ 32 - header) % 2 ^ 32
      modifyWriter w (fun writer =>
        { writer with buffer := fillBuffer header wrSize padSz extentLength writer.buffer })
      let bytes ← .read (fun fs => (fs.writers w).buffer.read 0 (wrSize + padSz))
      onIo (Zone.append zone bytes)
      let e : ZoneExtent := ⟨(← object r).extentStart + header, extentLength, zone⟩
      pushBack r e
      .update (published r e)
      let left := (left + 1 + 2 ^ 32 - extentLength) % 2 ^ 32
      if (← onIo (Device.zoneAt zone)).capacity = 0 then
        closeActiveZone r
        modifyWriter w (fun writer =>
          { writer with buffer := writer.buffer.write header (writer.buffer.read wrSize left) })
        allocateNewZone rounds r
      bufferLoop header w r rounds left

def appendBuffer (header rounds w : Nat) (r : Ref) (dataSize : Nat) : Proc ZenFS Unit := do
  if (← object r).activeZone.isNone then allocateNewZone rounds r
  bufferLoop header w r rounds dataSize

def bufferedAppend (rounds w : Nat) (r : Ref) (dataSize : Nat) : Proc ZenFS Unit :=
  appendBuffer 0 rounds w r dataSize

def sparseAppend (rounds w : Nat) (r : Ref) (dataSize : Nat) : Proc ZenFS Unit :=
  appendBuffer SPARSE_HEADER_SIZE rounds w r dataSize

def directLoop (r : Ref) : Nat → Bytes → Proc ZenFS Unit
  | _, [] => pure ()
  | 0, _ :: _ => .hang
  | rounds + 1, data => do
    match (← object r).activeZone with
    | none => .hang
    | some full =>
      if (← onIo (Device.zoneAt full)).capacity = 0 then
        pushExtent r
        closeActiveZone r
        allocateNewZone rounds r
      match (← object r).activeZone with
      | none => .hang
      | some zone =>
        let wrSize := min data.length (← onIo (Device.zoneAt zone)).capacity
        onIo (Zone.append zone (data.take wrSize))
        modifyObject r (fun f => { f with fileSize := f.fileSize + wrSize })
        directLoop r rounds (data.drop wrSize)

/-- `Append` takes its size as an `int` and counts it down as a `uint32_t`. -/
def append (rounds : Nat) (r : Ref) (data : Bytes) : Proc ZenFS Unit := do
  if (← object r).activeZone.isNone then allocateNewZone rounds r
  directLoop r rounds (data.take (data.length % 2 ^ 32))

end ZoneFile

namespace ZonedWritableFile

open ZoneFile

def writer (w : Nat) : Proc ZenFS Writer := .read (fun fs => fs.writers w)

def flushBuffer (rounds w : Nat) : Proc ZenFS Unit := do
  let this ← writer w
  if this.bufferPos = 0 then pure ()
  else
    if (← object this.file).isSparse then sparseAppend rounds w this.file this.bufferPos
    else bufferedAppend rounds w this.file this.bufferPos
    modifyWriter w (fun this => { this with wp := this.wp + this.bufferPos, bufferPos := 0 })

def toBuffer (data : Bytes) (this : Writer) : Writer :=
  { this with
    buffer := this.buffer.write (this.dataOffset + this.bufferPos) data
    bufferPos := this.bufferPos + data.length }

def bufferedLoop (rounds w : Nat) : Nat → Bytes → Proc ZenFS Unit
  | _, [] => pure ()
  | 0, _ :: _ => .hang
  | turns + 1, data => do
    let this ← writer w
    if this.bufferSz - this.bufferPos = 0 then flushBuffer rounds w
    let bufferLeft := if this.bufferSz - this.bufferPos = 0 then this.bufferSz else this.bufferSz - this.bufferPos
    modifyWriter w (toBuffer (data.take bufferLeft))
    bufferedLoop rounds w turns (data.drop bufferLeft)

/-- The size of the slice is cut to a `uint32_t`. -/
def bufferedWrite (rounds w : Nat) (slice : Bytes) : Proc ZenFS Unit :=
  let data := slice.take (slice.length % 2 ^ 32)
  bufferedLoop rounds w data.length data

def append (rounds w : Nat) (data : Bytes) : Proc ZenFS Unit := do
  let this ← writer w
  if this.buffered then bufferedWrite rounds w data
  else
    ZoneFile.append rounds this.file data
    modifyWriter w (fun this => { this with wp := this.wp + data.length })

def dataSync (rounds w : Nat) : Proc ZenFS Unit := do
  let this ← writer w
  if this.buffered then
    flushBuffer rounds w
    if (← object this.file).isSparse then pure () else persistMetadata this.file
  else pushExtent this.file

def fsync (rounds w : Nat) : Proc ZenFS Unit := do
  let this ← writer w
  dataSync rounds w
  if this.buffered && !(← object this.file).isSparse then pure () else persistMetadata this.file

def sync (rounds w : Nat) : Proc ZenFS Unit := dataSync rounds w

def rangeSync (rounds w offset nbytes : Nat) : Proc ZenFS Unit := do
  let this ← writer w
  if this.wp < (offset + nbytes) % 2 ^ 64 then dataSync rounds w else pure ()

def closeInternal (rounds w : Nat) : Proc ZenFS Unit := do
  let this ← writer w
  if !this.isOpen then pure ()
  else
    dataSync rounds w
    closeWR this.file
    modifyWriter w (fun this => { this with isOpen := false })

def close (rounds w : Nat) : Proc ZenFS Unit := closeInternal rounds w

/-- The destructor. With the writer goes its share in the file. -/
def destroy (rounds w : Nat) : Proc ZenFS Unit := do
  let this ← writer w
  match ← (closeInternal rounds w).attempt with
  | .ok () => pure ()
  | .error status => onZbd (setZoneDeferredStatus status)
  .update (fun fs =>
    { fs with handles := Function.update fs.handles this.file (fs.handles this.file - 1) }.dropUnowned this.file)

end ZonedWritableFile

end ZenFSModel

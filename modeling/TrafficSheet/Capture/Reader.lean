import TrafficSheet.Capture.Basic
import TrafficSheet.Files.Basic

/-!
# Reading captures

The head of a file is read first, then record after record. A record that is incomplete or
at fault ends the reading; the records before it stay. So what is read from any bytes is
the longest run of good records at their start, and the reason for stopping, if there is
one before the end.

A capture can be opened if its file can be read and has a good head. What is wrong further
on shows only when its records are read, and does not undo those before it.

What is not formalized: a file that changes while it is read, or that can be read in part only.
The bytes of a file are read at once.
-/

namespace TrafficSheet.Capture

/-- The encoding that the first four bytes of a file name. -/
def Encoding.ofMagic? (magic : Bytes) : Option Encoding :=
  if magic.bigValue = Resolution.micro.magic then some ⟨.big, .micro⟩
  else if magic.bigValue = Resolution.nano.magic then some ⟨.big, .nano⟩
  else if magic.littleValue = Resolution.micro.magic then some ⟨.little, .micro⟩
  else if magic.littleValue = Resolution.nano.magic then some ⟨.little, .nano⟩
  else none

/-- Reads the head of a file; its version and time zone are of no account. -/
def readHeader (file : Bytes) : Except Fault (Header × Bytes) :=
  let head : Bytes := file.take 24
  if head.length < 24 then .error .incomplete
  else
    match Encoding.ofMagic? (head.take 4) with
    | none => .error .wrongMagic
    | some encoding =>
      .ok
        ({ encoding
           snapLength := (head.field 16 4).value encoding.order
           linkNumber := (head.field 20 4).value encoding.order },
         file.drop 24)

/-- The number of four bytes at an offset of a record's header. -/
def recordNumber (h : Header) (offset : Nat) (bytes : Bytes) : Nat :=
  (bytes.field offset 4).value h.encoding.order

/-- How many captured bytes a record's header announces. -/
def announcedLength (h : Header) (bytes : Bytes) : Nat := recordNumber h 8 bytes

/-- The record that the bytes spell, whether or not its numbers are good. -/
def recordAt (h : Header) (bytes : Bytes) : Record where
  seconds := recordNumber h 0 bytes
  fraction := recordNumber h 4 bytes
  wireLength := recordNumber h 12 bytes
  data := bytes.field 16 (announcedLength h bytes)

/-- Reads the record at the start of the bytes and gives it with the bytes after it. -/
def readRecord (h : Header) (bytes : Bytes) : Except Fault (Record × Bytes) :=
  if (bytes.take 16).length < 16 then .error .incomplete
  else if (recordAt h bytes).data.length < announcedLength h bytes then .error .incomplete
  else
    match (recordAt h bytes).fault? h with
    | some fault => .error fault
    | none => .ok (recordAt h bytes, bytes.drop (16 + announcedLength h bytes))

/-- Reading a record uses up bytes. -/
theorem length_lt_of_readRecord {h : Header} {bytes rest : Bytes} {r : Record}
    (read : readRecord h bytes = .ok (r, rest)) : rest.length < bytes.length := by
  unfold readRecord at read
  split at read
  · simp at read
  · rename_i long
    simp only [List.length_take] at long
    split at read
    · simp at read
    · split at read
      · simp at read
      · simp only [Except.ok.injEq, Prod.mk.injEq] at read
        rw [← read.2, List.length_drop]
        omega

/-- The good records at the start of the bytes, and why reading stopped before their end. -/
def readRecords (h : Header) (bytes : Bytes) : List Record × Option Fault :=
  if bytes.isEmpty then ([], none)
  else
    match _read : readRecord h bytes with
    | .error fault => ([], some fault)
    | .ok (r, rest) =>
      let (records, fault?) := readRecords h rest
      (r :: records, fault?)
termination_by bytes.length
decreasing_by exact length_lt_of_readRecord _read

end TrafficSheet.Capture

namespace TrafficSheet

/-- What was read from a capture file. -/
structure Capture where
  /-- The head of the file. -/
  header : Capture.Header
  /-- The good records at the start of the file, in order. -/
  records : List Capture.Record
  /-- Why reading stopped before the end of the file, if it did. -/
  fault? : Option Capture.Fault
  deriving DecidableEq

namespace Capture

/-- Reads a capture file. Only a bad head is refused. -/
def read (file : Bytes) : Except Fault Capture :=
  match readHeader file with
  | .error fault => .error fault
  | .ok (header, body) =>
    let (records, fault?) := readRecords header body
    .ok { header, records, fault? }

/-- How the frames of the capture are framed. -/
def link (c : Capture) : Link := .ofNumber c.header.linkNumber

/-- The captured packets, in order. -/
def packets (c : Capture) : List Packet := c.records.map (·.packet c.header)

end Capture

/-! ### Opening capture files -/

/-- Why a capture cannot be opened, or cannot be read to its end. -/
inductive CaptureError where
  /-- The file cannot be read. -/
  | file (error : FileError)
  /-- The file is no good capture. -/
  | fault (reason : Capture.Fault)
  deriving DecidableEq

/-- The text of an error. -/
def CaptureError.message : CaptureError → String
  | .file error => "I/O error: " ++ error.message
  | .fault reason => "pcap error: " ++ reason.message

namespace Capture

/-- The capture in a file that was read, or not. -/
def ofFile : Except FileError Bytes → Except CaptureError Capture
  | .error e => .error (.file e)
  | .ok bytes => (read bytes).mapError .fault

/-- The number of packets of a capture that is good to its end. -/
def packetCount (c : Capture) : Except CaptureError Nat :=
  match c.fault? with
  | some fault => .error (.fault fault)
  | none => .ok c.records.length

/-- Opens the capture at a path. -/
def openAt {m : Type → Type} [Monad m] [Files m] (path : String) :
    m (Except CaptureError Capture) :=
  return ofFile (← Files.read path)

end Capture

end TrafficSheet

import NdsRecomp.Library.FrameStream
import NdsRecomp.Library.LittleEndian

/-!
The packet capture file: a fixed header, then one record for each frame, with
no count. A file is the list of its bytes. The sanitizer rewrites a frame in
place with a state of its own; here it is any such rewriting.
-/

namespace NdsRecomp.Net

open Library

def kNdsNetCaptureMagic : List UInt8 :=
  [0x4E, 0x44, 0x53, 0x4E, 0x45, 0x54, 0x52, 0x45, 0x50, 0x4C, 0x41, 0x59, 0x31, 0, 0, 0]

def kNdsNetCaptureFormatVersion : Nat := 1
def kNdsNetCaptureMaxFrameBytes : Nat := 2048
def kNdsNetCaptureDirTx : UInt8 := 0
def kNdsNetCaptureDirRx : UInt8 := 1

/-- `sizeof(NdsNetCaptureFileHeader)` -/
def fileHeaderSize : Nat := 141

/-- `sizeof(NdsNetCaptureRecordHeader)` -/
def recordHeaderSize : Nat := 16

structure NdsNetCaptureRecord where
  guestCycle : UInt64
  direction : UInt8
  frame : List UInt8
deriving DecidableEq

/-! ### Writer -/

/-- `snprintf` of a C string into a zeroed field of `width` bytes. -/
def cStringField (width : Nat) (text : List UInt8) : List UInt8 :=
  let shown := (text.takeWhile (· ≠ 0)).take (width - 1)
  shown ++ List.replicate (width - shown.length) 0

structure CaptureOptions where
  sanitize : Bool
  createdUnixTime : UInt64
  romSha1 : List UInt8
  scenarioTag : List UInt8

/-- What `Open` writes. -/
def fileHeader (options : CaptureOptions) : List UInt8 :=
  kNdsNetCaptureMagic ++ leBytes 4 kNdsNetCaptureFormatVersion ++ leBytes 4 fileHeaderSize ++
    [if options.sanitize then 1 else 0] ++ [0, 0, 0] ++
    leBytes 8 options.createdUnixTime.toNat ++ cStringField 41 options.romSha1 ++
    cStringField 64 options.scenarioTag

/-- `NdsNetCaptureRecordHeader`, with the length of the frame. -/
def recordHeader (r : NdsNetCaptureRecord) : List UInt8 :=
  leBytes 8 r.guestCycle.toNat ++ leBytes 4 r.frame.length ++ [r.direction] ++ [0, 0, 0]

/-- A record header and its payload. -/
def encodeRecord (r : NdsNetCaptureRecord) : List UInt8 := recordHeader r ++ r.frame

/-- `net_sanitize_ethernet_frame` on a buffer: the same number of bytes, and a
new state. -/
structure Sanitizer (σ : Type*) where
  start : σ
  run : σ → UInt8 → (frame : List UInt8) → { out : List UInt8 // out.length = frame.length } × σ

structure CaptureWriter (σ : Type*) where
  file : List UInt8
  sanitize : Bool
  state : σ

variable {σ : Type*} (sanitizer : Sanitizer σ)

namespace CaptureWriter

def openFile (options : CaptureOptions) : CaptureWriter σ where
  file := fileHeader options
  sanitize := options.sanitize
  state := sanitizer.start

/-- The buffer that is written for `data`, and the sanitizer's state after it. -/
def buffer (w : CaptureWriter σ) (direction : UInt8) (data : List UInt8) : List UInt8 × σ :=
  let buf := data.take kNdsNetCaptureMaxFrameBytes
  if w.sanitize then
    let (out, state) := sanitizer.run w.state direction buf
    (out.val, state)
  else (buf, w.state)

def write (w : CaptureWriter σ) (guestCycle : UInt64) (direction : UInt8) (data : List UInt8) :
    CaptureWriter σ :=
  if data.length = 0 then w
  else
    let (buf, state) := w.buffer sanitizer direction data
    { w with file := w.file ++ encodeRecord ⟨guestCycle, direction, buf⟩, state := state }

def writeAll (w : CaptureWriter σ) (records : List NdsNetCaptureRecord) : CaptureWriter σ :=
  records.foldl (fun w r => w.write sanitizer r.guestCycle r.direction r.frame) w

/-- The records with the frames as they are stored. -/
def stored (w : CaptureWriter σ) : List NdsNetCaptureRecord → List NdsNetCaptureRecord
  | [] => []
  | r :: records =>
      ⟨r.guestCycle, r.direction, (w.buffer sanitizer r.direction r.frame).1⟩ ::
        stored (w.write sanitizer r.guestCycle r.direction r.frame) records

end CaptureWriter

/-! ### Reader -/

/-- The header tests of `Open`, in order; the rest of the file is left. -/
def openCapture (path : String) (file : List UInt8) : Except String (List UInt8) :=
  let hdr := file.take fileHeaderSize
  let version := leNat ((hdr.drop 16).take 4)
  let headerSize := leNat ((hdr.drop 20).take 4)
  if hdr.length ≠ fileHeaderSize then
    .error ("truncated header in '" ++ path ++ "': expected " ++ toString fileHeaderSize ++
      " bytes, got " ++ toString hdr.length)
  else if hdr.take 16 ≠ kNdsNetCaptureMagic then
    .error ("bad magic in '" ++ path ++ "' -- not an NDSNETREPLAY1 capture")
  else if version ≠ kNdsNetCaptureFormatVersion then
    .error ("unsupported capture format_version " ++ toString version ++ " (reader expects " ++
      toString kNdsNetCaptureFormatVersion ++ ")")
  else if headerSize ≠ fileHeaderSize then
    .error ("header_size mismatch in '" ++ path ++ "': file says " ++ toString headerSize ++
      ", reader expects " ++ toString fileHeaderSize)
  else .ok (file.drop fileHeaderSize)

/-- One round of the loop of `ReadAll`. -/
def readFront (index : Nat) (input : List UInt8) : Front NdsNetCaptureRecord UInt8 String :=
  let rh := input.take recordHeaderSize
  let len := leNat ((rh.drop 8).take 4)
  let direction := (rh.drop 12).headD 0
  let payload := (input.drop recordHeaderSize).take len
  if rh.length = 0 then .clean
  else if rh.length ≠ recordHeaderSize then
    .broken ("truncated record header at record " ++ toString index ++ ": expected " ++
      toString recordHeaderSize ++ " bytes, got " ++ toString rh.length)
  else if len > kNdsNetCaptureMaxFrameBytes then
    .broken ("corrupt record " ++ toString index ++ ": length field " ++ toString len ++
      " exceeds max frame size " ++ toString kNdsNetCaptureMaxFrameBytes)
  else if direction ≠ kNdsNetCaptureDirTx ∧ direction ≠ kNdsNetCaptureDirRx then
    .broken ("corrupt record " ++ toString index ++ ": invalid direction byte " ++
      toString direction)
  else if payload.length ≠ len then
    .broken ("truncated record " ++ toString index ++ ": expected " ++ toString len ++
      " payload bytes, got " ++ toString payload.length)
  else
    .frame ⟨UInt64.ofNat (leNat (rh.take 8)), direction, payload⟩
      ((input.drop recordHeaderSize).drop len)

theorem readFront_shrinks {i : Nat} {input rest : List UInt8} {r : NdsNetCaptureRecord}
    (h : readFront i input = .frame r rest) : rest.length < input.length := by
  unfold readFront at h
  dsimp only at h
  split at h
  · cases h
  · next hsome =>
      split at h
      · cases h
      · next hwhole =>
          split at h
          · cases h
          · split at h
            · cases h
            · split at h
              · cases h
              · obtain ⟨-, hrest⟩ := Front.frame.inj h
                have hlength := List.length_take_le recordHeaderSize input
                have hinput : recordHeaderSize ≤ input.length := by
                  have htake := List.length_take_le' recordHeaderSize input
                  omega
                rw [← hrest, List.length_drop, List.length_drop]
                have hpos : 0 < recordHeaderSize := by decide
                omega

def captureFormat : FrameFormat NdsNetCaptureRecord UInt8 String where
  front := readFront
  shrinks := readFront_shrinks

/-- The records pushed to the output, and the outcome of `ReadAll`. -/
def readAll (input : List UInt8) : List NdsNetCaptureRecord × Except String Unit :=
  captureFormat.scan 0 input

/-- `Open`, then `ReadAll`. -/
def readCapture (path : String) (file : List UInt8) :
    List NdsNetCaptureRecord × Except String Unit :=
  match openCapture path file with
  | .error e => ([], .error e)
  | .ok input => readAll input

end NdsRecomp.Net

/-!
What the capture writer writes, the reader reads back; a file cut short reads
back exactly when it ends between two records.
-/

namespace NdsRecomp.Net

open Library

/-- A record as the network bridge produces it. -/
structure NdsNetCaptureRecord.Valid (r : NdsNetCaptureRecord) : Prop where
  nonempty : 0 < r.frame.length
  bounded : r.frame.length ≤ kNdsNetCaptureMaxFrameBytes
  direction : r.direction = kNdsNetCaptureDirTx ∨ r.direction = kNdsNetCaptureDirRx

/-! ### One record -/

theorem recordHeader_length (r : NdsNetCaptureRecord) :
    (recordHeader r).length = recordHeaderSize := by
  simp [recordHeader, recordHeaderSize]

theorem recordHeader_cycle (r : NdsNetCaptureRecord) :
    UInt64.ofNat (leNat ((recordHeader r).take 8)) = r.guestCycle := by
  have htake : (recordHeader r).take 8 = leBytes 8 r.guestCycle.toNat := by
    unfold recordHeader
    rw [List.append_assoc, List.append_assoc, List.take_append_of_le_length (by simp)]
    exact List.take_of_length_le (by simp)
  have hlt : r.guestCycle.toNat < 256 ^ 8 := lt_of_lt_of_eq r.guestCycle.toNat_lt (by norm_num)
  rw [htake, leNat_leBytes_of_lt hlt, UInt64.ofNat_toNat]

theorem recordHeader_len (r : NdsNetCaptureRecord)
    (h : r.frame.length ≤ kNdsNetCaptureMaxFrameBytes) :
    leNat (((recordHeader r).drop 8).take 4) = r.frame.length := by
  have htake : ((recordHeader r).drop 8).take 4 = leBytes 4 r.frame.length := by
    unfold recordHeader
    rw [List.append_assoc, List.append_assoc, List.drop_append_of_le_length (by simp),
      List.drop_of_length_le (by simp), List.nil_append, List.take_append_of_le_length (by simp)]
    exact List.take_of_length_le (by simp)
  have hlt : r.frame.length < 256 ^ 4 := lt_of_le_of_lt h (by decide)
  rw [htake, leNat_leBytes_of_lt hlt]

theorem recordHeader_direction (r : NdsNetCaptureRecord) :
    ((recordHeader r).drop 12).headD 0 = r.direction := by
  have hdrop : (recordHeader r).drop 12 = [r.direction, 0, 0, 0] := by
    have hfront : (leBytes 8 r.guestCycle.toNat ++ leBytes 4 r.frame.length).length = 12 := by simp
    unfold recordHeader
    rw [List.append_assoc _ [r.direction], ← hfront, List.drop_left]
    rfl
  rw [hdrop]
  rfl

/-- The loop on a whole record header: what follows decides between a frame and
a truncated record. -/
theorem readFront_header {r : NdsNetCaptureRecord} (h : r.Valid) (i : Nat) (tail : List UInt8) :
    readFront i (recordHeader r ++ tail) =
      if (tail.take r.frame.length).length ≠ r.frame.length then
        .broken ("truncated record " ++ toString i ++ ": expected " ++ toString r.frame.length ++
          " payload bytes, got " ++ toString (tail.take r.frame.length).length)
      else .frame ⟨r.guestCycle, r.direction, tail.take r.frame.length⟩
        (tail.drop r.frame.length) := by
  have hlength := recordHeader_length r
  have htake : (recordHeader r ++ tail).take recordHeaderSize = recordHeader r := by
    rw [← hlength]
    exact List.take_left
  have hdrop : (recordHeader r ++ tail).drop recordHeaderSize = tail := by
    rw [← hlength]
    exact List.drop_left
  have hsome : ¬ (recordHeader r).length = 0 := by
    rw [hlength]
    decide
  have hwhole : ¬ (recordHeader r).length ≠ recordHeaderSize := not_not_intro hlength
  have hbound : ¬ r.frame.length > kNdsNetCaptureMaxFrameBytes := not_lt.mpr h.bounded
  have hdirection : ¬ (r.direction ≠ kNdsNetCaptureDirTx ∧ r.direction ≠ kNdsNetCaptureDirRx) := by
    rintro ⟨htx, hrx⟩
    rcases h.direction with hd | hd
    · exact htx hd
    · exact hrx hd
  unfold readFront
  dsimp only
  rw [htake, hdrop, recordHeader_len r h.bounded, recordHeader_direction, recordHeader_cycle,
    if_neg hsome, if_neg hwhole, if_neg hbound, if_neg hdirection]

theorem readFront_encodeRecord {r : NdsNetCaptureRecord} (h : r.Valid) (i : Nat)
    (rest : List UInt8) : readFront i (encodeRecord r ++ rest) = .frame r rest := by
  have htake : (r.frame ++ rest).take r.frame.length = r.frame := List.take_left
  have hdrop : (r.frame ++ rest).drop r.frame.length = rest := List.drop_left
  unfold encodeRecord
  rw [List.append_assoc, readFront_header h, htake, hdrop, if_neg (not_not_intro rfl)]

/-- A part of a record, cut in its header or in its payload. -/
theorem readFront_cut {r : NdsNetCaptureRecord} (h : r.Valid) (i n : Nat) (hpos : 0 < n)
    (hn : n < (encodeRecord r).length) :
    ∃ e, readFront i ((encodeRecord r).take n) = .broken e := by
  have hlength := recordHeader_length r
  unfold encodeRecord at hn ⊢
  rw [List.length_append, hlength] at hn
  rcases Nat.lt_or_ge n recordHeaderSize with hheader | hpayload
  · have hcut : (((recordHeader r ++ r.frame).take n).take recordHeaderSize).length = n := by
      rw [List.take_take, List.length_take, List.length_append, hlength]
      omega
    unfold readFront
    dsimp only
    rw [if_neg (by rw [hcut]; omega), if_pos (by rw [hcut]; omega)]
    exact ⟨_, rfl⟩
  · have hsplit : (recordHeader r ++ r.frame).take n =
        recordHeader r ++ r.frame.take (n - recordHeaderSize) := by
      rw [List.take_append, hlength, List.take_of_length_le (by omega)]
    have hshort : ((r.frame.take (n - recordHeaderSize)).take r.frame.length).length ≠
        r.frame.length := by
      rw [List.length_take, List.length_take]
      omega
    rw [hsplit, readFront_header h, if_pos hshort]
    exact ⟨_, rfl⟩

theorem readFront_nil (i : Nat) : readFront i [] = .clean := by
  unfold readFront
  dsimp only
  rw [List.take_nil, if_pos List.length_nil]

theorem captureFormat_front : captureFormat.front = readFront := rfl

theorem captureFormat_encodes : captureFormat.Encodes encodeRecord NdsNetCaptureRecord.Valid := by
  refine ⟨?_, ?_, ?_⟩
  · intro i
    rw [captureFormat_front]
    exact readFront_nil i
  · intro i r rest h
    rw [captureFormat_front]
    exact readFront_encodeRecord h i rest
  · intro i r n h hpos hn
    rw [captureFormat_front]
    exact readFront_cut h i n hpos hn

/-- The reader takes no record with an oversized length or an invalid
direction, whatever the bytes. -/
theorem readFront_sound {i : Nat} {input rest : List UInt8} {r : NdsNetCaptureRecord}
    (h : readFront i input = .frame r rest) :
    r.frame.length ≤ kNdsNetCaptureMaxFrameBytes ∧
      (r.direction = kNdsNetCaptureDirTx ∨ r.direction = kNdsNetCaptureDirRx) := by
  unfold readFront at h
  dsimp only at h
  split at h
  · cases h
  split at h
  · cases h
  split at h
  · cases h
  next hbound =>
    split at h
    · cases h
    next hdirection =>
      split at h
      · cases h
      next hpayload =>
        obtain ⟨hr, -⟩ := Front.frame.inj h
        subst hr
        refine ⟨?_, ?_⟩
        · have hlen := not_not.mp hpayload
          rw [hlen]
          exact not_lt.mp hbound
        · by_contra hno
          exact hdirection (not_or.mp hno)

/-! ### The header -/

theorem cStringField_length (width : Nat) (hwidth : 0 < width) (text : List UInt8) :
    (cStringField width text).length = width := by
  have hle : ((text.takeWhile (· ≠ 0)).take (width - 1)).length ≤ width - 1 :=
    List.length_take_le _ _
  unfold cStringField
  dsimp only
  rw [List.length_append, List.length_replicate]
  omega

theorem fileHeader_length (options : CaptureOptions) :
    (fileHeader options).length = fileHeaderSize := by
  unfold fileHeader
  simp [cStringField_length, kNdsNetCaptureMagic, fileHeaderSize]

/-- The three fields `Open` tests, in a header followed by anything. -/
theorem fileHeader_fields (options : CaptureOptions) :
    (fileHeader options).take 16 = kNdsNetCaptureMagic ∧
      ((fileHeader options).drop 16).take 4 = leBytes 4 kNdsNetCaptureFormatVersion ∧
      ((fileHeader options).drop 20).take 4 = leBytes 4 fileHeaderSize := by
  unfold fileHeader
  simp only [List.append_assoc]
  exact ⟨rfl, rfl, rfl⟩

theorem openCapture_fileHeader (path : String) (options : CaptureOptions) (rest : List UInt8) :
    openCapture path (fileHeader options ++ rest) = .ok rest := by
  have hlength := fileHeader_length options
  obtain ⟨hmagic, hversion, hsize⟩ := fileHeader_fields options
  have htake : (fileHeader options ++ rest).take fileHeaderSize = fileHeader options := by
    rw [← hlength]
    exact List.take_left
  have hdrop : (fileHeader options ++ rest).drop fileHeaderSize = rest := by
    rw [← hlength]
    exact List.drop_left
  have hversionNat : leNat (leBytes 4 kNdsNetCaptureFormatVersion) = kNdsNetCaptureFormatVersion :=
    leNat_leBytes_of_lt (by decide)
  have hsizeNat : leNat (leBytes 4 fileHeaderSize) = fileHeaderSize :=
    leNat_leBytes_of_lt (by decide)
  unfold openCapture
  dsimp only
  rw [htake, hdrop, hmagic, hversion, hsize, hversionNat, hsizeNat,
    if_neg (not_not_intro hlength), if_neg (not_not_intro rfl), if_neg (not_not_intro rfl),
    if_neg (not_not_intro rfl)]

theorem openCapture_short (path : String) {file : List UInt8} (h : file.length < fileHeaderSize) :
    ∃ e, openCapture path file = .error e := by
  have hshort : (file.take fileHeaderSize).length ≠ fileHeaderSize := by
    rw [List.length_take]
    omega
  unfold openCapture
  dsimp only
  rw [if_pos hshort]
  exact ⟨_, rfl⟩

/-! ### The writer -/

namespace CaptureWriter

variable {σ : Type*} (sanitizer : Sanitizer σ)

theorem buffer_length (w : CaptureWriter σ) (direction : UInt8) {data : List UInt8}
    (h : data.length ≤ kNdsNetCaptureMaxFrameBytes) :
    (w.buffer sanitizer direction data).1.length = data.length := by
  have htake : data.take kNdsNetCaptureMaxFrameBytes = data := List.take_of_length_le h
  unfold buffer
  dsimp only
  rw [htake]
  split
  · exact (sanitizer.run w.state direction data).1.property
  · rfl

theorem stored_valid (w : CaptureWriter σ) {records : List NdsNetCaptureRecord}
    (hvalid : ∀ r ∈ records, r.Valid) : ∀ r ∈ w.stored sanitizer records, r.Valid := by
  induction records generalizing w with
  | nil =>
      intro r hr
      cases hr
  | cons r records ih =>
      intro q hq
      have hr : r.Valid := hvalid r List.mem_cons_self
      rcases List.mem_cons.mp hq with rfl | hmem
      · have hlength := w.buffer_length sanitizer r.direction hr.bounded
        refine ⟨?_, ?_, hr.direction⟩
        · exact lt_of_lt_of_eq hr.nonempty hlength.symm
        · exact le_of_eq_of_le hlength hr.bounded
      · exact ih _ (fun p hp => hvalid p (List.mem_cons_of_mem r hp)) q hmem

theorem writeAll_file (w : CaptureWriter σ) {records : List NdsNetCaptureRecord}
    (hvalid : ∀ r ∈ records, r.Valid) :
    (w.writeAll sanitizer records).file =
      w.file ++ (w.stored sanitizer records).flatMap encodeRecord := by
  induction records generalizing w with
  | nil => exact (List.append_nil _).symm
  | cons r records ih =>
      have hr : r.Valid := hvalid r List.mem_cons_self
      have hstep : (w.write sanitizer r.guestCycle r.direction r.frame).file =
          w.file ++ encodeRecord
            ⟨r.guestCycle, r.direction, (w.buffer sanitizer r.direction r.frame).1⟩ := by
        unfold write
        rw [if_neg (Nat.pos_iff_ne_zero.mp hr.nonempty)]
      calc (w.writeAll sanitizer (r :: records)).file
          = ((w.write sanitizer r.guestCycle r.direction r.frame).writeAll sanitizer records).file :=
            rfl
        _ = w.file ++ (w.stored sanitizer (r :: records)).flatMap encodeRecord := by
            rw [ih _ fun p hp => hvalid p (List.mem_cons_of_mem r hp), hstep, stored,
              List.flatMap_cons, List.append_assoc]

/-- Without sanitizing the frames are stored as they are. -/
theorem stored_raw (w : CaptureWriter σ) (hraw : w.sanitize = false)
    {records : List NdsNetCaptureRecord} (hvalid : ∀ r ∈ records, r.Valid) :
    w.stored sanitizer records = records := by
  induction records generalizing w with
  | nil => rfl
  | cons r records ih =>
      have hr : r.Valid := hvalid r List.mem_cons_self
      have hbuffer : (w.buffer sanitizer r.direction r.frame).1 = r.frame := by
        unfold buffer
        dsimp only
        rw [hraw, if_neg Bool.false_ne_true]
        exact List.take_of_length_le hr.bounded
      have hkeeps : (w.write sanitizer r.guestCycle r.direction r.frame).sanitize = false := by
        unfold write
        split
        · exact hraw
        · exact hraw
      rw [stored, hbuffer, ih _ hkeeps fun p hp => hvalid p (List.mem_cons_of_mem r hp)]

end CaptureWriter

/-! ### The file -/

/-- The file a session writes. -/
def captureFile {σ : Type*} (sanitizer : Sanitizer σ) (options : CaptureOptions)
    (records : List NdsNetCaptureRecord) : List UInt8 :=
  ((CaptureWriter.openFile sanitizer options).writeAll sanitizer records).file

/-- The records of a session as they are stored. -/
def storedRecords {σ : Type*} (sanitizer : Sanitizer σ) (options : CaptureOptions)
    (records : List NdsNetCaptureRecord) : List NdsNetCaptureRecord :=
  (CaptureWriter.openFile sanitizer options).stored sanitizer records

/-- The position in the file after `k` records. -/
def recordBoundary (records : List NdsNetCaptureRecord) (k : Nat) : Nat :=
  fileHeaderSize + ((records.take k).flatMap encodeRecord).length

theorem captureFile_eq {σ : Type*} (sanitizer : Sanitizer σ) (options : CaptureOptions)
    {records : List NdsNetCaptureRecord} (hvalid : ∀ r ∈ records, r.Valid) :
    captureFile sanitizer options records =
      fileHeader options ++ (storedRecords sanitizer options records).flatMap encodeRecord :=
  CaptureWriter.writeAll_file sanitizer _ hvalid

/-- The reader on the first `n` bytes of a header followed by valid records. -/
theorem readCapture_take (path : String) (options : CaptureOptions)
    {records : List NdsNetCaptureRecord} (hvalid : ∀ r ∈ records, r.Valid) {n : Nat}
    (hn : n ≤ (fileHeader options ++ records.flatMap encodeRecord).length) :
    (∃ k ≤ records.length, n = recordBoundary records k ∧
        readCapture path ((fileHeader options ++ records.flatMap encodeRecord).take n) =
          (records.take k, .ok ())) ∨
      ((∀ k ≤ records.length, n ≠ recordBoundary records k) ∧
        ∃ read e, readCapture path ((fileHeader options ++ records.flatMap encodeRecord).take n) =
          (read, .error e)) := by
  have hlength := fileHeader_length options
  rcases Nat.lt_or_ge n fileHeaderSize with hshort | hlong
  · refine Or.inr ⟨fun k _ hk => ?_, [], ?_⟩
    · unfold recordBoundary at hk
      omega
    · have htaken : ((fileHeader options ++ records.flatMap encodeRecord).take n).length <
          fileHeaderSize := by
        rw [List.length_take]
        omega
      obtain ⟨e, he⟩ := openCapture_short path htaken
      refine ⟨e, ?_⟩
      unfold readCapture
      rw [he]
  · have hsplit : (fileHeader options ++ records.flatMap encodeRecord).take n =
        fileHeader options ++ (records.flatMap encodeRecord).take (n - fileHeaderSize) := by
      rw [List.take_append, hlength, List.take_of_length_le (by omega)]
    have hread : readCapture path ((fileHeader options ++ records.flatMap encodeRecord).take n) =
        captureFormat.scan 0 ((records.flatMap encodeRecord).take (n - fileHeaderSize)) := by
      unfold readCapture
      rw [hsplit, openCapture_fileHeader]
      rfl
    have hrest : n - fileHeaderSize ≤ (records.flatMap encodeRecord).length := by
      rw [List.length_append, hlength] at hn
      omega
    rw [hread]
    rcases captureFormat_encodes.scan_take records hvalid 0 _ hrest with
      ⟨k, ⟨hk, hat⟩, hscan⟩ | ⟨hno, k, e, hscan⟩
    · refine Or.inl ⟨k, hk, ?_, hscan⟩
      unfold recordBoundary
      omega
    · refine Or.inr ⟨fun j hj hat => hno j ⟨hj, ?_⟩, _, e, hscan⟩
      unfold recordBoundary at hat
      omega

/-- What is written reads back; a prefix of the file reads back, with the
records it contains whole, if and only if it ends at a record boundary; and no
bytes make the reader take an oversized record or an invalid direction. -/
theorem capture_file_law {σ : Type*} (sanitizer : Sanitizer σ) (path : String)
    (options : CaptureOptions) {records : List NdsNetCaptureRecord}
    (hvalid : ∀ r ∈ records, r.Valid) :
    readCapture path (captureFile sanitizer options records) =
        (storedRecords sanitizer options records, .ok ()) ∧
      (options.sanitize = false → storedRecords sanitizer options records = records) ∧
      (∀ n ≤ (captureFile sanitizer options records).length,
        (∃ k ≤ (storedRecords sanitizer options records).length,
            n = recordBoundary (storedRecords sanitizer options records) k ∧
            readCapture path ((captureFile sanitizer options records).take n) =
              ((storedRecords sanitizer options records).take k, .ok ())) ∨
          ((∀ k ≤ (storedRecords sanitizer options records).length,
              n ≠ recordBoundary (storedRecords sanitizer options records) k) ∧
            ∃ read e, readCapture path ((captureFile sanitizer options records).take n) =
              (read, .error e))) ∧
      ∀ bytes, ∀ r ∈ (readCapture path bytes).1,
        r.frame.length ≤ kNdsNetCaptureMaxFrameBytes ∧
          (r.direction = kNdsNetCaptureDirTx ∨ r.direction = kNdsNetCaptureDirRx) := by
  have hstored : ∀ r ∈ storedRecords sanitizer options records, r.Valid :=
    CaptureWriter.stored_valid sanitizer _ hvalid
  refine ⟨?_, ?_, ?_, ?_⟩
  · unfold readCapture
    rw [captureFile_eq sanitizer options hvalid, openCapture_fileHeader]
    exact captureFormat_encodes.scan_flatMap _ hstored 0
  · intro hraw
    exact CaptureWriter.stored_raw sanitizer _ hraw hvalid
  · intro n hn
    rw [captureFile_eq sanitizer options hvalid] at hn ⊢
    exact readCapture_take path options hstored hn
  · intro bytes r hr
    unfold readCapture at hr
    split at hr
    · cases hr
    · exact captureFormat.scan_forall (fun _ _ _ _ h => readFront_sound h) 0 _ r hr

/-- Two records, one in each direction, unsanitized. -/
theorem capture_file_law_two :
    readCapture "two.cap"
        (captureFile ⟨(), fun _ _ frame => (⟨frame, rfl⟩, ())⟩ ⟨false, 0, [], []⟩
          [⟨5, 0, [1, 2, 3]⟩, ⟨9, 1, [4]⟩]) =
      ([⟨5, 0, [1, 2, 3]⟩, ⟨9, 1, [4]⟩], .ok ()) := by
  have hvalid : ∀ r ∈ [(⟨5, 0, [1, 2, 3]⟩ : NdsNetCaptureRecord), ⟨9, 1, [4]⟩], r.Valid := by
    intro r hr
    rcases List.mem_cons.mp hr with rfl | hr
    · exact ⟨by decide, by decide, Or.inl rfl⟩
    · rcases List.mem_cons.mp hr with rfl | hr
      · exact ⟨by decide, by decide, Or.inr rfl⟩
      · cases hr
  obtain ⟨hread, hraw, -⟩ := capture_file_law ⟨(), fun _ _ frame => (⟨frame, rfl⟩, ())⟩ "two.cap"
    ⟨false, 0, [], []⟩ hvalid
  rw [hraw rfl] at hread
  exact hread

end NdsRecomp.Net

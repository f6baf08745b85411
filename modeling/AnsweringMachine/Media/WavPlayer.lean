import AnsweringMachine.Media.Playback

/-!
# Reading a file

The port of a player hands out a file in frames, through a buffer that is filled a block at a time.
At the end of the file `fill_buffer` starts again at its beginning, also for a file that is played
once, and only remembers where in the buffer the end was: `eofpos`.  Frames and blocks need not fit
into each other, so that a frame may be taken from two blocks, and the end may lie anywhere in a
frame.

`Ahead` is the state before the end of the file: where in the file the block in the buffer begins,
and what follows from it.  `AtEnd` is the state after it.  `heard_readings` says what is handed out:
the file from its beginning to its end, and then, because the last frame has to be full, what
`filling` says.  That is the beginning of the file once more, as far as the buffer holds it, and
silence.  From then on every further reading reports the end.

The numbers of a header have the width they have in the file, and sizes are computed with 32 bits.
-/

namespace TAM

/-- A file that has been opened, after its header: its samples, whether it is played only once, and
the size of the buffer, which is not larger than the file. -/
structure WavFile (α : Type) where
  data : List α
  noLoop : Bool
  bufsize : ℕ
  bufsize_pos : 0 < bufsize
  bufsize_le : bufsize ≤ data.length

/-- `file_reader_port`: the buffer, where to read on in it, whether the end was met, where it is in
the buffer (`none` is the null pointer), and the position in the file. -/
structure FilePort (α : Type) where
  buf : List α
  readpos : ℕ
  eof : Bool
  eofpos : Option ℕ
  fpos : ℕ
  deriving Repr, DecidableEq

namespace WavFile

variable {α : Type}

/-- The loop of `fill_buffer`, with what is left to fill, the position in the file, and what has
been filled.  After the end the rest of the buffer is zeroed, and then filled from the beginning. -/
def fillLoop (w : WavFile α) (left fpos : ℕ) (filled : List α) (eof : Bool) (eofpos : Option ℕ) :
    List α × Bool × Option ℕ × ℕ :=
  if left = 0 then (filled, eof, eofpos, fpos)
  else
    let chunk := (w.data.drop fpos).take left
    if chunk.length < left then
      w.fillLoop (left - chunk.length) 0 (filled ++ chunk) true (some (filled ++ chunk).length)
    else w.fillLoop (left - chunk.length) (fpos + chunk.length) (filled ++ chunk) eof eofpos
termination_by (left, if fpos < w.data.length then 0 else 1)
decreasing_by
  · have := w.bufsize_pos
    have := w.bufsize_le
    simp_wf
    simp only [Prod.lex_def]
    split_ifs <;> omega
  · simp_wf
    simp only [chunk, List.length_take, List.length_drop, Prod.lex_def] at *
    omega

/-- `fill_buffer`. -/
def fillBuffer (w : WavFile α) (p : FilePort α) : FilePort α :=
  let (buf, eof, eofpos, fpos) := w.fillLoop w.bufsize p.fpos [] p.eof none
  { p with buf, eof, eofpos, fpos }

/-- `file_get_frame`: whether the callback was called, the frame if there is one, and the port.  The
callback returns `cbSuccess`. -/
def getFrame [Zero α] (w : WavFile α) (cbSuccess : Bool) (frameSize : ℕ) (p : FilePort α) :
    Bool × Option (List α) × FilePort α :=
  let atEnd := p.eof && decide (∀ e ∈ p.eofpos, e ≤ p.readpos)
  if atEnd ∧ (¬ cbSuccess ∨ w.noLoop) then (true, none, p)
  else
    let p := if atEnd then { p with eof := false } else p
    if p.readpos + frameSize ≤ w.bufsize then
      let frame := (p.buf.drop p.readpos).take frameSize
      let p := { p with readpos := p.readpos + frameSize }
      if p.readpos = w.bufsize then (atEnd, some frame, w.fillBuffer { p with readpos := 0 })
      else (atEnd, some frame, p)
    else
      let endread := w.bufsize - p.readpos
      let frame := (p.buf.drop p.readpos).take endread
      if p.eof ∧ w.noLoop then
        (atEnd, some (frame ++ List.replicate (frameSize - endread) 0),
          { p with readpos := p.readpos + endread })
      else
        let p := w.fillBuffer p
        (atEnd, some (frame ++ p.buf.take (frameSize - endread)),
          { p with readpos := frameSize - endread })

end WavFile

/-! ## Opening a file -/

/-- The format of the samples. -/
inductive FmtTag
  | PCM
  | ALAW
  | ULAW
  | other
  deriving DecidableEq, Repr

/-- The fields of a header that are looked at. -/
structure WavHeader where
  fmtTag : FmtTag
  nchan : UInt16
  sampleRate : UInt32
  bitsPerSample : UInt16
  blockAlign : UInt16
  dataLen : UInt32
  deriving DecidableEq, Repr

/-- What opening a file may end in. -/
inductive WavError
  | PJMEDIA_ENOTVALIDWAVE
  | PJMEDIA_EWAVEUNSUPP
  | PJMEDIA_EWAVETOOSHORT
  | PJ_EINVAL
  deriving DecidableEq, Repr

namespace WavHeader

/-- The check of the format and its attributes. -/
def checkFormat (h : WavHeader) : Except WavError Unit :=
  match h.fmtTag with
  | .PCM =>
      -- the product is an `int`, and is not cut to 16 bits
      if h.bitsPerSample ≠ 16 ∨ h.blockAlign.toNat ≠ 2 * h.nchan.toNat then
        .error .PJMEDIA_EWAVEUNSUPP
      else .ok ()
  | .ALAW | .ULAW =>
      if h.bitsPerSample ≠ 8 ∨ h.blockAlign ≠ h.nchan then .error .PJMEDIA_ENOTVALIDWAVE else .ok ()
  | .other => .error .PJMEDIA_EWAVEUNSUPP

def bytesPerSample (h : WavHeader) : UInt16 := h.bitsPerSample / 8

def samplesPerFrame (h : WavHeader) (ptime : UInt32) : UInt32 :=
  h.sampleRate * h.nchan.toUInt32 * ptime / 1000

/-- The bytes of the file in a frame. -/
def frameSize (h : WavHeader) (ptime : UInt32) : UInt32 :=
  h.samplesPerFrame ptime * h.bytesPerSample.toUInt32

end WavHeader

/-- `PJMEDIA_FILE_PORT_BUFSIZE`. -/
def filePortBufsize : ℕ := 4000

def normalizePtime (ptime : UInt32) : UInt32 := if ptime = 0 then 20 else ptime

/-- The size of the buffer, which is adjusted to a short file. -/
def bufsizeFor (dataLen : ℕ) : ℕ := if dataLen < filePortBufsize then dataLen else filePortBufsize

lemma bufsizeFor_le (dataLen : ℕ) : bufsizeFor dataLen ≤ dataLen := by
  rw [bufsizeFor]
  split_ifs <;> omega

/-- `pjmedia_wav_player_port_create` after the header has been read, for the default size of the
buffer.  `data` is the rest of the file. -/
def wavPlayerPortCreate {α : Type} (h : WavHeader) (data : List α) (ptime : UInt32)
    (noLoop : Bool) :
    Except WavError (WavFile α × FilePort α) :=
  let ptime := normalizePtime ptime
  match h.checkFormat with
  | .error e => .error e
  | .ok () =>
      if hlen : h.dataLen.toNat ≠ data.length then .error .PJMEDIA_EWAVEUNSUPP
      else if h.dataLen < ptime * h.sampleRate * h.nchan.toUInt32 / 1000 then
        .error .PJMEDIA_EWAVETOOSHORT
      else if hsize : bufsizeFor h.dataLen.toNat ≤ (h.frameSize ptime).toNat then .error .PJ_EINVAL
      else
        let w : WavFile α :=
          { data, noLoop
            bufsize := bufsizeFor h.dataLen.toNat
            bufsize_pos := Nat.zero_lt_of_lt (not_le.mp hsize)
            bufsize_le := (bufsizeFor_le _).trans (not_not.mp hlen).le }
        .ok (w, w.fillBuffer ⟨[], 0, false, none, 0⟩)

/-! ## Before and after the end -/

namespace WavFile

section Reading

variable {α : Type} {w : WavFile α} {p : FilePort α} {s r : ℕ}

/-- What a buffer holds that was filled from a position of the file on. -/
def block (w : WavFile α) (s : ℕ) : List α := (w.data.drop s ++ w.data).take w.bufsize

/-- The file has as much as is left to fill. -/
lemma fillLoop_of_fits (w : WavFile α) {left fpos : ℕ} (hfits : fpos + left ≤ w.data.length)
    (filled : List α) (eof : Bool) (eofpos : Option ℕ) :
    w.fillLoop left fpos filled eof eofpos =
      (filled ++ (w.data.drop fpos).take left, eof, eofpos, fpos + left) := by
  have hchunk : ((w.data.drop fpos).take left).length = left := by
    rw [List.length_take, List.length_drop]
    omega
  rw [fillLoop]
  split_ifs with hleft
  · simp [hleft]
  · simp only [hchunk, lt_irrefl, if_false, Nat.sub_self]
    rw [fillLoop, if_pos rfl]

/-- The file ends before. -/
lemma fillLoop_of_wraps (w : WavFile α) {left fpos : ℕ} (hpos : fpos ≤ w.data.length)
    (hwraps : w.data.length < fpos + left) (filled : List α) (eof : Bool) (eofpos : Option ℕ) :
    w.fillLoop left fpos filled eof eofpos =
      w.fillLoop (fpos + left - w.data.length) 0 (filled ++ w.data.drop fpos) true
        (some (filled.length + (w.data.length - fpos))) := by
  have hchunk : (w.data.drop fpos).take left = w.data.drop fpos := by
    rw [List.take_of_length_le]
    rw [List.length_drop]
    omega
  rw [fillLoop, if_neg (by omega)]
  simp only [hchunk, List.length_append, List.length_drop]
  rw [if_pos (by omega)]
  congr 1
  omega

/-- What `fill_buffer` comes to. -/
lemma fillBuffer_eq (w : WavFile α) (p : FilePort α) (hpos : p.fpos ≤ w.data.length) :
    w.fillBuffer p = if p.fpos + w.bufsize ≤ w.data.length then
      { p with buf := w.block p.fpos, eofpos := none, fpos := p.fpos + w.bufsize }
    else
      { p with
        buf := w.block p.fpos
        eof := true
        eofpos := some (w.data.length - p.fpos)
        fpos := p.fpos + w.bufsize - w.data.length } := by
  have hle := w.bufsize_le
  split_ifs with hfits
  · have hblock : w.block p.fpos = (w.data.drop p.fpos).take w.bufsize := by
      rw [block, List.take_append_of_le_length]
      rw [List.length_drop]
      omega
    rw [fillBuffer, w.fillLoop_of_fits hfits, hblock]
    rfl
  · -- the file is not shorter than the buffer, so that it ends once
    have hblock : w.block p.fpos =
        w.data.drop p.fpos ++ w.data.take (p.fpos + w.bufsize - w.data.length) := by
      rw [block, List.take_append, List.length_drop, List.take_of_length_le]
      · congr 2
        omega
      · rw [List.length_drop]
        omega
    rw [fillBuffer, w.fillLoop_of_wraps hpos (not_le.mp hfits), w.fillLoop_of_fits (by omega),
      hblock]
    simp

/-- The buffer holds the block that begins at `s`, `r` bytes of it have been handed out, and the
port knows whether and where the file ends in it. -/
structure Ahead (w : WavFile α) (s r : ℕ) (p : FilePort α) : Prop where
  start : w.bufsize ∣ s
  start_le : s ≤ w.data.length
  readpos_eq : p.readpos = r
  readpos_lt : r < w.bufsize
  buf_eq : p.buf = w.block s
  within : s + w.bufsize ≤ w.data.length → p.eof = false ∧ p.fpos = s + w.bufsize
  beyond : w.data.length < s + w.bufsize →
    p.eof = true ∧ p.eofpos = some (w.data.length - s) ∧ p.fpos = s + w.bufsize - w.data.length

/-- The end of the file has been handed out. -/
def AtEnd (p : FilePort α) : Prop := p.eof = true ∧ ∀ e ∈ p.eofpos, e ≤ p.readpos

lemma Ahead.atEnd_iff (h : w.Ahead s r p) : AtEnd p ↔ w.data.length ≤ s + r := by
  have hlt := h.readpos_lt
  by_cases hfits : s + w.bufsize ≤ w.data.length
  · simp only [AtEnd, (h.within hfits).1, Bool.false_eq_true, false_and, false_iff]
    omega
  · obtain ⟨heof, heofpos, -⟩ := h.beyond (not_le.mp hfits)
    simp only [AtEnd, heof, heofpos, h.readpos_eq, Option.mem_def, Option.some.injEq, forall_eq',
      true_and]
    omega

/-- The next block is read into the buffer. -/
lemma ahead_fillBuffer (hstart : w.bufsize ∣ p.fpos) (hle : p.fpos ≤ w.data.length)
    (hreadpos : p.readpos < w.bufsize) (heof : p.eof = false) :
    w.Ahead p.fpos p.readpos (w.fillBuffer p) := by
  rw [w.fillBuffer_eq p hle]
  split_ifs with hfits
  · exact ⟨hstart, hle, rfl, hreadpos, rfl, fun _ => ⟨heof, rfl⟩,
      fun hlt => absurd hfits (not_le.mpr hlt)⟩
  · exact ⟨hstart, hle, rfl, hreadpos, rfl, fun hle => absurd hle hfits, fun _ => ⟨rfl, rfl, rfl⟩⟩

/-- What has not been handed out of the buffer. -/
lemma Ahead.drop_buf (h : w.Ahead s r p) (hle : s + r ≤ w.data.length) :
    p.buf.drop p.readpos = (w.data.drop (s + r) ++ w.data).take (w.bufsize - r) := by
  rw [h.buf_eq, h.readpos_eq, block, List.drop_take, List.drop_append_of_le_length, List.drop_drop]
  rw [List.length_drop]
  omega

lemma Ahead.setReadpos (h : w.Ahead s r p) {r' : ℕ} (hr : r' < w.bufsize) :
    w.Ahead s r' { p with readpos := r' } :=
  ⟨h.start, h.start_le, rfl, hr, h.buf_eq, h.within, h.beyond⟩

variable {size : ℕ}

/-- A file that is played once, in frames of the given size: less than a block, and not such that
three frames are two blocks. -/
structure Fits (w : WavFile α) (size : ℕ) : Prop where
  noLoop : w.noLoop
  size_pos : 0 < size
  size_lt : size < w.bufsize
  room : 3 * size ≠ 2 * w.bufsize ∨ w.bufsize = w.data.length

/-- The port has gone on to the given position of the file. -/
def Reached (w : WavFile α) (pos : ℕ) (p : FilePort α) : Prop :=
  (∃ s r, w.Ahead s r p ∧ s + r = pos) ∨ w.data.length ≤ pos ∧ AtEnd p

/-- The second block cannot be the one the file ends in and be read to its end by a frame that
leaves less than half of it for the file: three frames would have to be as large as two blocks. -/
lemma two_blocks {n k : ℕ} (hn : n * size + size = (k + 1) * w.bufsize) (hsize : size < w.bufsize)
    (hroom : 3 * size ≠ 2 * w.bufsize) (hstart : k * w.bufsize ≤ w.data.length)
    (hlt : n * size < w.data.length) : k * w.bufsize + 2 * w.bufsize ≤ 2 * w.data.length := by
  have hle := w.bufsize_le
  rcases k with _ | _ | k
  · omega
  · -- two blocks are at least four frames
    have hfour : 4 ≤ n + 1 := by
      by_contra hlt
      have hcases : n = 0 ∨ n = 1 ∨ n = 2 := by omega
      rcases hcases with rfl | rfl | rfl <;> omega
    have hsize' : 4 * size ≤ n * size + size :=
      (Nat.mul_le_mul_right size hfour).trans (Nat.add_one_mul n size).le
    omega
  · have htwo : 2 * w.bufsize ≤ (k + 1 + 1) * w.bufsize := Nat.mul_le_mul_right _ (by omega)
    omega

/-- The buffer has been read to its end.  If the file ended in it, the next block has no end: it
could have one only if three frames took two blocks. -/
lemma Ahead.reached_fillBuffer (h : w.Ahead s r p) (hlt : s + r < w.data.length) {n : ℕ}
    (hn : s + r = n * size) (hw : w.Fits size) (hend : r + size = w.bufsize) :
    w.Reached (s + r + size) (w.fillBuffer { p with readpos := 0 }) := by
  have hle := w.bufsize_le
  have hstart_le := h.start_le
  obtain ⟨k, hk⟩ := h.start
  obtain rfl : s = k * w.bufsize := hk.trans (Nat.mul_comm _ _)
  by_cases hfits : k * w.bufsize + w.bufsize ≤ w.data.length
  · obtain ⟨heof, hfpos⟩ := h.within hfits
    have hahead := ahead_fillBuffer (w := w) (p := { p with readpos := 0 })
      (by simp only [hfpos]; exact ⟨k + 1, by ring⟩) (by simpa only [hfpos] using hfits)
      w.bufsize_pos heof
    exact .inl ⟨p.fpos, 0, hahead, by omega⟩
  · obtain ⟨heof, -, hfpos⟩ := h.beyond (not_le.mp hfits)
    have hnext : k * w.bufsize + 2 * w.bufsize ≤ 2 * w.data.length := by
      rcases hw.room with hroom | hroom
      · exact two_blocks (k := k) (by rw [Nat.add_one_mul]; omega) hw.size_lt hroom hstart_le
          (hn ▸ hlt)
      · rcases k with _ | k
        · omega
        · rw [Nat.add_one_mul] at *
          omega
    refine .inr ⟨by omega, ?_⟩
    rw [w.fillBuffer_eq _ (by simp only [hfpos]; omega), if_pos (by simp only [hfpos]; omega)]
    exact ⟨heof, by simp⟩

lemma Reached.atEnd {pos : ℕ} (h : w.Reached pos p) (hle : w.data.length ≤ pos) : AtEnd p := by
  rcases h with ⟨s, r, h, rfl⟩ | ⟨-, h⟩
  · exact h.atEnd_iff.mpr hle
  · exact h

/-- How many frames a file has. -/
def frames (w : WavFile α) (size : ℕ) : ℕ := (w.data.length + size - 1) / size

lemma lt_frames_iff (hsize : 0 < size) (n : ℕ) : n < w.frames size ↔ n * size < w.data.length := by
  rw [frames, Nat.lt_iff_add_one_le, Nat.le_div_iff_mul_le hsize, Nat.add_one_mul]
  omega

lemma length_le_frames_mul (hsize : 0 < size) : w.data.length ≤ w.frames size * size :=
  not_lt.mp ((lt_frames_iff hsize _).not.mp (lt_irrefl _))

/-- The last frame begins before the end of the file, and does not end before it. -/
lemma frames_eq_iff (hsize : 0 < size) {n : ℕ} (hlt : n * size < w.data.length) :
    w.frames size = n + 1 ↔ w.data.length ≤ (n + 1) * size := by
  have hn := (lt_frames_iff (w := w) hsize n).mpr hlt
  rw [← not_lt, ← lt_frames_iff hsize]
  omega

/-- Where the block ends that a position lies in. -/
def blockEnd (w : WavFile α) (pos : ℕ) : ℕ := (pos / w.bufsize + 1) * w.bufsize

lemma blockEnd_eq (hstart : w.bufsize ∣ s) (hr : r < w.bufsize) :
    w.blockEnd (s + r) = s + w.bufsize := by
  obtain ⟨k, rfl⟩ := hstart
  rw [blockEnd, Nat.mul_add_div w.bufsize_pos, Nat.div_eq_of_lt hr, Nat.add_zero, Nat.add_one_mul,
    Nat.mul_comm k]

variable [Zero α]

/-- What the last frame is filled up with: the beginning of the file once more, if the file ended in
the block the frame begins in as far as that block goes, and silence. -/
def filling (w : WavFile α) (size : ℕ) : List α :=
  let missing := w.frames size * size - w.data.length
  let stop := w.blockEnd ((w.frames size - 1) * size)
  let again := if w.data.length < stop then min missing (stop - w.data.length) else missing
  w.data.take again ++ List.replicate (missing - again) 0

/-- The frame that is taken when `r` bytes of the block at `s` have been handed out. -/
def frameAt (w : WavFile α) (s r size : ℕ) : List α :=
  if w.data.length < s + w.bufsize ∧ w.bufsize < r + size then
    (w.data.drop (s + r) ++ w.data).take (w.bufsize - r) ++
      List.replicate (r + size - w.bufsize) 0
  else (w.data.drop (s + r) ++ w.data).take size

/-- A frame within the file is a piece of the file. -/
lemma frameAt_of_le (hle : s + r + size ≤ w.data.length) :
    w.frameAt s r size = (w.data.drop (s + r)).take size := by
  rw [frameAt, if_neg (by omega), List.take_append_of_le_length]
  rw [List.length_drop]
  omega

/-- The last frame is the rest of the file and what it is filled up with. -/
lemma frameAt_last (hstart : w.bufsize ∣ s) (hr : r < w.bufsize) {n : ℕ} (hn : s + r = n * size)
    (hlt : s + r < w.data.length) (hpos : 0 < size) (hlast : w.frames size = n + 1) :
    w.frameAt s r size = w.data.drop (s + r) ++ w.filling size := by
  have hend : w.data.length ≤ (n + 1) * size := (frames_eq_iff hpos (hn ▸ hlt)).mp hlast
  have hblock : w.blockEnd ((w.frames size - 1) * size) = s + w.bufsize := by
    rw [hlast, Nat.add_sub_cancel, ← hn, blockEnd_eq hstart hr]
  have hdrop : (w.data.drop (s + r)).length = w.data.length - (s + r) := List.length_drop
  rw [Nat.add_one_mul, ← hn] at hend
  rw [frameAt, filling, hblock, hlast, Nat.add_one_mul, ← hn]
  by_cases hsilent : w.data.length < s + w.bufsize ∧ w.bufsize < r + size
  · rw [if_pos hsilent, if_pos hsilent.1, min_eq_right (by omega), List.take_append,
      List.take_of_length_le (by omega), hdrop, List.append_assoc]
    congr 3 <;> omega
  · have hagain : (if w.data.length < s + w.bufsize then
          min (s + r + size - w.data.length) (s + w.bufsize - w.data.length)
        else s + r + size - w.data.length) = s + r + size - w.data.length := by
      split_ifs <;> omega
    simp only [if_neg hsilent, hagain, Nat.sub_self, List.replicate_zero, List.append_nil]
    rw [List.take_append, List.take_of_length_le (by omega), hdrop]
    congr 2
    omega

/-- With what it is filled up with, the file is a number of frames. -/
lemma length_append_filling (hw : w.Fits size) :
    (w.data ++ w.filling size).length = w.frames size * size := by
  have hle := w.bufsize_le
  have hsize := hw.size_lt
  have hpos := hw.size_pos
  have hmul := length_le_frames_mul (w := w) hpos
  obtain ⟨n, hn⟩ : ∃ n, w.frames size = n + 1 :=
    Nat.exists_eq_add_one.mpr ((lt_frames_iff hpos 0).mpr (by have := w.bufsize_pos; omega))
  have hlt : n * size < w.data.length := (lt_frames_iff hpos n).mp (by omega)
  have hsucc : w.frames size * size = n * size + size := by rw [hn, Nat.add_one_mul]
  simp only [filling, List.length_append, List.length_take, List.length_replicate]
  split_ifs <;> omega

/-- **A frame** is a piece of the file with what it is filled up with. -/
lemma frameAt_eq (hstart : w.bufsize ∣ s) (hr : r < w.bufsize) {n : ℕ} (hn : s + r = n * size)
    (hlt : s + r < w.data.length) (hw : w.Fits size) :
    w.frameAt s r size = ((w.data ++ w.filling size).drop (s + r)).take size := by
  have hlength := length_append_filling hw
  rw [List.drop_append_of_le_length hlt.le]
  by_cases hle : s + r + size ≤ w.data.length
  · rw [frameAt_of_le hle, List.take_append_of_le_length]
    rw [List.length_drop]
    omega
  · have hlast : w.frames size = n + 1 :=
      (frames_eq_iff hw.size_pos (hn ▸ hlt)).mpr (by rw [Nat.add_one_mul]; omega)
    rw [frameAt_last hstart hr hn hlt hw.size_pos hlast, List.take_of_length_le]
    rw [hlast, Nat.add_one_mul, ← hn, List.length_append] at hlength
    rw [List.length_append, List.length_drop]
    omega

/-- **One frame**, before the end of the file. -/
lemma Ahead.getFrame (h : w.Ahead s r p) (hlt : s + r < w.data.length) {n : ℕ}
    (hn : s + r = n * size) (hw : w.Fits size) (cbSuccess : Bool) :
    ∃ p', w.getFrame cbSuccess size p = (false, some (w.frameAt s r size), p') ∧
      w.Reached (s + r + size) p' := by
  have hreadpos := h.readpos_lt
  have hsize := hw.size_lt
  have hnot : (p.eof && decide (∀ e ∈ p.eofpos, e ≤ p.readpos)) = false := by
    have hend : ¬ AtEnd p := h.atEnd_iff.not.mpr (not_le.mpr hlt)
    simpa [AtEnd] using hend
  simp only [WavFile.getFrame, hnot, Bool.false_eq_true, false_and, if_false]
  simp only [h.drop_buf hlt.le]
  simp only [h.readpos_eq]
  by_cases hcontiguous : r + size ≤ w.bufsize
  · have hframe : ((w.data.drop (s + r) ++ w.data).take (w.bufsize - r)).take size =
        w.frameAt s r size := by
      rw [List.take_take, min_eq_left (by omega), frameAt, if_neg (by omega)]
    simp only [if_pos hcontiguous, hframe]
    by_cases hend : r + size = w.bufsize
    · rw [if_pos hend]
      exact ⟨_, rfl, h.reached_fillBuffer hlt hn hw hend⟩
    · rw [if_neg hend]
      exact ⟨_, rfl, .inl ⟨s, r + size, h.setReadpos (by omega), by omega⟩⟩
  · simp only [if_neg hcontiguous]
    by_cases hfits : s + w.bufsize ≤ w.data.length
    · -- the frame is taken from this block and the next
      obtain ⟨heof, hfpos⟩ := h.within hfits
      have hahead := ahead_fillBuffer (w := w) (p := p)
        (hfpos ▸ Nat.dvd_add h.start (Nat.dvd_refl _)) (by omega) (h.readpos_eq ▸ hreadpos) heof
      have hdrop : (w.data.drop (s + r) ++ w.data).drop (w.bufsize - r) =
          w.data.drop p.fpos ++ w.data := by
        rw [List.drop_append_of_le_length (by rw [List.length_drop]; omega), List.drop_drop]
        congr 2
        omega
      have hframe : ((w.data.drop (s + r) ++ w.data).take (w.bufsize - r)).take (w.bufsize - r) ++
          (w.fillBuffer p).buf.take (size - (w.bufsize - r)) = w.frameAt s r size := by
        rw [List.take_take, min_self, hahead.buf_eq, block, List.take_take, min_eq_left (by omega),
          ← hdrop, ← List.take_add, Nat.add_sub_cancel' (by omega), frameAt, if_neg (by omega)]
      simp only [heof, Bool.false_eq_true, false_and, if_false, hframe]
      exact ⟨_, rfl, .inl ⟨p.fpos, _, hahead.setReadpos (by omega), by omega⟩⟩
    · -- the file ended in this block: the rest of the frame is silence
      obtain ⟨heof, heofpos, -⟩ := h.beyond (not_le.mp hfits)
      have hframe : ((w.data.drop (s + r) ++ w.data).take (w.bufsize - r)).take (w.bufsize - r) ++
          List.replicate (size - (w.bufsize - r)) 0 = w.frameAt s r size := by
        rw [List.take_take, min_self, frameAt, if_pos (by omega)]
        congr 2
        omega
      simp only [heof, hw.noLoop, and_self, if_true, hframe]
      refine ⟨_, rfl, .inr ⟨by omega, rfl, ?_⟩⟩
      simp only [heofpos, Option.mem_def, Option.some.injEq, forall_eq']
      omega

lemma AtEnd.getFrame (h : AtEnd p) (hloop : w.noLoop) (cbSuccess : Bool) (size : ℕ) :
    w.getFrame cbSuccess size p = (true, none, p) := by
  have hend : (p.eof && decide (∀ e ∈ p.eofpos, e ≤ p.readpos)) = true := by
    rw [h.1, Bool.true_and]
    exact decide_eq_true h.2
  simp only [WavFile.getFrame, hend, hloop, or_true, and_self, if_true]

/-- **One reading**, as long as there are frames. -/
lemma Reached.getFrame_of_lt {n : ℕ} (h : w.Reached (n * size) p) (hw : w.Fits size)
    (hlt : n < w.frames size) (cbSuccess : Bool) :
    ∃ p', w.getFrame cbSuccess size p =
        (false, some (((w.data ++ w.filling size).drop (n * size)).take size), p') ∧
      w.Reached ((n + 1) * size) p' := by
  have hpos := (lt_frames_iff hw.size_pos n).mp hlt
  rcases h with ⟨s, r, hahead, hn⟩ | ⟨hle, -⟩
  · obtain ⟨p', hget, hreached⟩ := hahead.getFrame (hn ▸ hpos) hn hw cbSuccess
    rw [frameAt_eq hahead.start hahead.readpos_lt hn (hn ▸ hpos) hw, hn] at hget
    rw [hn, ← Nat.add_one_mul] at hreached
    exact ⟨p', hget, hreached⟩
  · exact absurd hpos (not_lt.mpr hle)

/-- **One reading** behind the last frame. -/
lemma Reached.getFrame_of_le {n : ℕ} (h : w.Reached (n * size) p) (hw : w.Fits size)
    (hle : w.frames size ≤ n) (cbSuccess : Bool) :
    w.getFrame cbSuccess size p = (true, none, p) ∧ w.Reached ((n + 1) * size) p := by
  have hpos : w.data.length ≤ n * size :=
    not_lt.mp ((lt_frames_iff hw.size_pos n).not.mp (not_lt.mpr hle))
  have hend := h.atEnd hpos
  have hmul : n * size ≤ (n + 1) * size := Nat.mul_le_mul_right size n.le_succ
  exact ⟨hend.getFrame hw.noLoop cbSuccess size, .inr ⟨hpos.trans hmul, hend⟩⟩

/-- A number of readings, with what each came to: whether the callback was called, and a frame. -/
def readings (w : WavFile α) (cbSuccess : ℕ → Bool) (size : ℕ) (p : FilePort α) :
    ℕ → List (Bool × Option (List α)) × FilePort α
  | 0 => ([], p)
  | n + 1 =>
      let (out, p) := w.readings cbSuccess size p n
      let (called, frame, p) := w.getFrame (cbSuccess n) size p
      (out ++ [(called, frame)], p)

/-- What was handed out. -/
def heard (out : List (Bool × Option (List α))) : List α := (out.filterMap Prod.snd).flatten

/-- How often the callback was called. -/
def callbacks (out : List (Bool × Option (List α))) : ℕ := out.countP Prod.fst

omit [Zero α] in
lemma heard_append (out out' : List (Bool × Option (List α))) :
    heard (out ++ out') = heard out ++ heard out' := by
  simp [heard]

omit [Zero α] in
lemma callbacks_append (out out' : List (Bool × Option (List α))) :
    callbacks (out ++ out') = callbacks out + callbacks out' :=
  List.countP_append

/-- **Any number of readings.** -/
lemma Reached.readings (h : w.Reached 0 p) (hw : w.Fits size) (cbSuccess : ℕ → Bool) (n : ℕ) :
    w.Reached (n * size) (w.readings cbSuccess size p n).2 ∧
      heard (w.readings cbSuccess size p n).1 = (w.data ++ w.filling size).take (n * size) ∧
      callbacks (w.readings cbSuccess size p n).1 = n - w.frames size := by
  induction n with
  | zero =>
      refine ⟨by rw [Nat.zero_mul]; exact h, ?_, ?_⟩
      · simp [WavFile.readings, heard]
      · simp [WavFile.readings, callbacks]
  | succ n ih =>
      obtain ⟨hreached, hheard, hcalls⟩ := ih
      simp only [WavFile.readings]
      generalize w.readings cbSuccess size p n = result at *
      rcases lt_or_ge n (w.frames size) with hlt | hle
      · obtain ⟨p', hget, hreached'⟩ := hreached.getFrame_of_lt hw hlt (cbSuccess n)
        simp only [hget, heard_append, callbacks_append, hheard, hcalls]
        refine ⟨hreached', ?_, ?_⟩
        · rw [Nat.add_one_mul, List.take_add]
          simp [heard]
        · simp only [callbacks, List.countP_singleton, Bool.false_eq_true, if_false]
          omega
      · obtain ⟨hget, hreached'⟩ := hreached.getFrame_of_le hw hle (cbSuccess n)
        simp only [hget, heard_append, callbacks_append, hheard, hcalls]
        refine ⟨hreached', ?_, ?_⟩
        · -- nothing is left of the file
          have hlength := length_append_filling hw
          have hmul := Nat.mul_le_mul_right size hle
          have hmul' : n * size ≤ (n + 1) * size := Nat.mul_le_mul_right size n.le_succ
          rw [List.take_of_length_le (hlength.le.trans hmul),
            List.take_of_length_le (hlength.le.trans (hmul.trans hmul'))]
          simp [heard]
        · simp only [callbacks, List.countP_singleton, if_true]
          omega

end Reading

end WavFile

section Playing

variable {α : Type} {h : WavHeader} {data : List α} {ptime : UInt32} {noLoop : Bool} {w : WavFile α}
  {p : FilePort α}

/-- What is known of a file that could be opened. -/
lemma wavPlayerPortCreate_ok (hopen : wavPlayerPortCreate h data ptime noLoop = .ok (w, p)) :
    w.data = data ∧ w.noLoop = noLoop ∧
      (h.frameSize (normalizePtime ptime)).toNat < w.bufsize ∧
      (w.bufsize = data.length ∨ w.bufsize = filePortBufsize) ∧
      p = w.fillBuffer ⟨[], 0, false, none, 0⟩ := by
  rw [wavPlayerPortCreate] at hopen
  cases hformat : h.checkFormat with
  | error e => simp [hformat] at hopen
  | ok u =>
      simp only [hformat] at hopen
      split_ifs at hopen with hlen hshort hsize
      obtain ⟨rfl, rfl⟩ := Prod.mk.inj (Except.ok.inj hopen)
      refine ⟨rfl, rfl, not_le.mp hsize, ?_, rfl⟩
      simp only [bufsizeFor, ← not_not.mp hlen]
      split_ifs
      · exact .inl rfl
      · exact .inr rfl

/-- A file that could be opened: two blocks are not three frames, because
`PJMEDIA_FILE_PORT_BUFSIZE` is not a multiple of three. -/
lemma reached_of_create (hopen : wavPlayerPortCreate h data ptime true = .ok (w, p)) {size : ℕ}
    (hsize : size = (h.frameSize (normalizePtime ptime)).toNat) (hpos : 0 < size) :
    w.Fits size ∧ w.Reached 0 p := by
  obtain ⟨rfl, hloop, hlt, hbufsize, hp⟩ := wavPlayerPortCreate_ok hopen
  refine ⟨⟨hloop, hpos, hsize ▸ hlt, ?_⟩, ?_⟩
  · rcases hbufsize with hb | hb
    · exact .inr hb
    · rw [hb, filePortBufsize]
      omega
  · have hahead := WavFile.ahead_fillBuffer (w := w) (p := ⟨[], 0, false, none, 0⟩)
      (Nat.dvd_zero _) (Nat.zero_le _) w.bufsize_pos rfl
    exact .inl ⟨0, 0, hp ▸ hahead, rfl⟩

end Playing

end TAM

import HtFirmware.Machinery.Cells
import HtFirmware.Web.AcceptEncoding

/-!
# Web/Frogfs — the answer to a request for an entry of the file system

    directory  ──▸  301, Location: path/index.html
    file       ──▸  Content-Length, chunks of 4096 bytes, and an empty one

Two statements of `frogfs_file_handler` do not do what is meant.  A `return` that is not ended takes the
call of `snprintf` behind it for its value: a path that is too long is reported as a failure, but one
that fits is never written where the location is sent from.  And the number of bytes is written in an
array of an inner block, which is left before the headers are sent from it.  Everything else is right
(`serves_iff_spared`).
-/

open Machinery

namespace Web

/-! ## The file system and the client -/

/-- A file: what is in it, and the same as a zlib stream, if it is kept so. -/
structure File where
  plain : List UInt8
  zlib : Option (List UInt8)
  plain_small : plain.length < 2 ^ 32
  zlib_small : ∀ z ∈ zlib, z.length < 2 ^ 32
  /-- A stream has a header. -/
  zlib_ne_nil : ∀ z ∈ zlib, z ≠ []

/-- An entry of the file system. -/
inductive Entry where
  | directory
  | file (f : File)

/-- What the handler meets. -/
structure World where
  /-- `frogfs_get_entry`. -/
  getEntry : CString → Option Entry
  /-- `frogfs_open` has a handle. -/
  opens : Bool
  /-- The value of `Accept-Encoding`, if the client sent one. -/
  acceptEncoding : Option CString
  /-- `httpd_resp_send_chunk` succeeds, for the data of each turn. -/
  sends : ℕ → Bool
  /-- `frogfs_read` reads as much as it is asked for, in each turn. -/
  reads : ℕ → Bool
  /-- What lies in `new_path` when the handler is called. -/
  newPath : ℕ → Char
  /-- What is found in `size_buffer` when the headers are sent, from what was written there before its
  block was left. -/
  left : CString → CString

/-! ## The handler -/

def espOk : ℤ := 0

def espFail : ℤ := -1

/-- `maximum_chunk_size`. -/
def maximumChunkSize : ℕ := 4096

/-- `index_name`. -/
def indexName : CString := "/index.html".toList

/-- What the client is sent: nothing; a status and a type, with the location in an array, and no
content; or some headers, and the chunks. -/
inductive Reply where
  | nothing
  | redirect (status type : CString) (location : Tracked Char)
  | chunked (headers : List (CString × CString)) (chunks : List (List UInt8))

/-- The value of `snprintf`: the length of the text, unless an `int` cannot be so large. -/
def snprintfValue (length : ℕ) : ℤ := if length < 2 ^ 31 then length else -1

/-- What `snprintf` writes in `size_buffer`. -/
def sizeBuffer (size : ℕ) : CString := (Nat.toDigits 10 size).take 15

/-- The loop that sends some data: the chunks that it gives `httpd_resp_send_chunk`, in its turns from
`n` on.  It is left where the data cannot be read, and where it cannot be sent. -/
def sendChunks (reads sends : ℕ → Bool) (n : ℕ) (data : List UInt8) : List (List UInt8) :=
  if 0 < data.length then
    let ioSize := min data.length maximumChunkSize
    if reads n then
      data.take ioSize ::
        if sends n then sendChunks reads sends (n + 1) (data.drop ioSize) else []
    else []
  else []
termination_by data.length
decreasing_by
  rw [List.length_drop, maximumChunkSize]
  omega

/-- The compressed data is in memory. -/
def sendCompressed (w : World) (data : List UInt8) : List (List UInt8) :=
  sendChunks (fun _ => true) w.sends 0 data

/-- The file is read. -/
def sendUncompressed (w : World) (data : List UInt8) : List (List UInt8) :=
  sendChunks w.reads w.sends 0 data

def contentLength : CString := "Content-Length".toList

def contentEncoding : CString := "Content-Encoding".toList

/-- The answer with a file that is open. -/
def serveFile (w : World) (f : File) : Reply :=
  match f.zlib, clientAcceptsCompression w.acceptEncoding compression with
  | some z, true =>
    .chunked ((contentLength, w.left (sizeBuffer z.length)) ::
      if 0 < z.length then [(contentEncoding, compression)] else []) (sendCompressed w z ++ [[]])
  | _, _ =>
    .chunked [(contentLength, w.left (sizeBuffer f.plain.length))] (sendUncompressed w f.plain ++ [[]])

/-- `frogfs_file_handler`. -/
def frogfsFileHandler (w : World) (path : CString) : ℤ × Reply :=
  match w.getEntry path with
  | some .directory =>
    if 256 - (indexName.length + 1) < path.length then
      -- `return snprintf(new_path, ...)`: the statement has no end of its own
      (snprintfValue (path.length + indexName.length), .nothing)
    else
      (espOk, .redirect "301 Moved Permanently".toList "text/html".toList (.untouched w.newPath))
  | some (.file f) => if w.opens then (espOk, serveFile w f) else (espFail, .nothing)
  | none => (espFail, .nothing)

/-! ## What it is to answer -/

/-- A text was written at the beginning of an array, with its null. -/
structure Written (m : Tracked Char) (text : CString) : Prop where
  holds : HoldsAt m.cells 0 (text ++ ['\x00'])
  written : ∀ i ≤ text.length, m.written i = true

/-- A turn of sending some data fails: the data is not sent, or not read, where it has to be. -/
def World.Fails (w : World) (compressed : Bool) (data : List UInt8) : Prop :=
  ∃ n, maximumChunkSize * n < data.length ∧
    (w.sends n = false ∨ compressed = false ∧ w.reads n = false)

/-- The number of bytes is still in `size_buffer`. -/
def World.Keeps (w : World) (size : ℕ) : Prop := w.left (Nat.toDigits 10 size) = Nat.toDigits 10 size

/-- A file is carried: compressed, with the header that says so, or as it is, in chunks of 4096 bytes at
most, and one that is empty; all of it, and its length, unless a turn fails. -/
structure Carries (w : World) (f : File) (headers : List (CString × CString))
    (chunks : List (List UInt8)) (compressed : Bool) (data : List UInt8) : Prop where
  content : if compressed then f.zlib = some data else f.plain = data
  encoding : (contentEncoding, compression) ∈ headers ↔ compressed = true
  bounded : ∀ c ∈ chunks, c ≠ [] ∧ c.length ≤ 4096
  whole : ¬ w.Fails compressed data → chunks.flatten = data ∧
    (contentLength, Nat.toDigits 10 data.length) ∈ headers

/-- **The answer is the one to a request for the path.** -/
inductive Serves (w : World) (path : CString) : ℤ → Reply → Prop where
  | nothing : w.getEntry path = none → Serves w path espFail .nothing
  | directory {m : Tracked Char} : w.getEntry path = some .directory →
      path.length + indexName.length < 256 → Written m (path ++ indexName) →
      Serves w path espOk (.redirect "301 Moved Permanently".toList "text/html".toList m)
  | long {result : ℤ} : w.getEntry path = some .directory → 256 ≤ path.length + indexName.length →
      result ≠ espOk → Serves w path result .nothing
  | unopened {f : File} : w.getEntry path = some (.file f) → w.opens = false →
      Serves w path espFail .nothing
  | file {f : File} {headers : List (CString × CString)} {chunks : List (List UInt8)}
      {compressed : Bool} {data : List UInt8} : w.getEntry path = some (.file f) → w.opens = true →
      Carries w f headers chunks compressed data →
      Serves w path espOk (.chunked headers (chunks ++ [[]]))

/-- **The two slips are not reached**: the path is not that of a directory with a location that fits,
and the number of bytes of a file that is sent whole is still there when the headers are sent. -/
def SparedFrom (w : World) (path : CString) : Prop :=
  match w.getEntry path with
  | none => True
  | some .directory => 256 ≤ path.length + indexName.length
  | some (.file f) =>
    w.opens = true →
      match f.zlib, clientAcceptsCompression w.acceptEncoding compression with
      | some z, true => w.Fails true z ∨ w.Keeps z.length
      | _, _ => w.Fails false f.plain ∨ w.Keeps f.plain.length

/-! ## The chunks -/

section Chunks

variable {reads sends : ℕ → Bool} {n : ℕ} {data : List UInt8}

/-- The first of the data. -/
theorem length_take_chunk (h : 0 < data.length) :
    data.take (min data.length maximumChunkSize) ≠ [] ∧
      (data.take (min data.length maximumChunkSize)).length ≤ 4096 := by
  have hmaximum : maximumChunkSize = 4096 := rfl
  rw [← List.length_pos_iff, List.length_take, hmaximum]
  omega

/-- **No chunk is empty, and none is larger than 4096 bytes.** -/
theorem bounded_sendChunks : ∀ c ∈ sendChunks reads sends n data, c ≠ [] ∧ c.length ≤ 4096 := by
  fun_induction sendChunks reads sends n data with
  | case1 n data hsome ioSize hread ih =>
    intro c hc
    obtain rfl | hc := List.mem_cons.mp hc
    · exact length_take_chunk hsome
    · split_ifs at hc with hsend
      · exact ih c hc
      · exact absurd hc List.not_mem_nil
  | case2 => exact fun c hc => absurd hc List.not_mem_nil
  | case3 => exact fun c hc => absurd hc List.not_mem_nil

/-- **All of the data is in the chunks**, unless a turn fails. -/
theorem flatten_sendChunks
    (h : ∀ k, maximumChunkSize * k < data.length → reads (n + k) = true ∧ sends (n + k) = true) :
    (sendChunks reads sends n data).flatten = data := by
  fun_induction sendChunks reads sends n data with
  | case1 n data hsome ioSize hread ih =>
    have hrest := ih fun k hk => by
      rw [List.length_drop] at hk
      have hturn := h (k + 1) (by rw [Nat.mul_add, Nat.mul_one]; omega)
      rwa [← Nat.add_assoc, Nat.add_right_comm] at hturn
    have hsend : sends n = true := (h 0 hsome).2
    rw [if_pos hsend, List.flatten_cons, hrest, List.take_append_drop]
  | case2 n data hsome hread => exact absurd (h 0 hsome).1 hread
  | case3 n data hnone => exact (List.length_eq_zero_iff.mp (Nat.eq_zero_of_not_pos hnone)).symm

end Chunks

/-! ## Files -/

section Files

variable {w : World} {f : File} {z data : List UInt8} {headers : List (CString × CString)}
  {chunks : List (List UInt8)} {compressed : Bool} {value : CString}

theorem sizeBuffer_eq {n : ℕ} (h : n < 2 ^ 32) : sizeBuffer n = Nat.toDigits 10 n := by
  have hten : (Nat.toDigits 10 n).length ≤ 10 :=
    (Nat.length_toDigits_le_iff (by decide) (by decide)).mpr (by omega)
  exact List.take_of_length_le (by omega)

theorem serveFile_zlib (hz : f.zlib = some z)
    (haccepts : clientAcceptsCompression w.acceptEncoding compression = true) : serveFile w f =
      .chunked [(contentLength, w.left (sizeBuffer z.length)), (contentEncoding, compression)]
        (sendCompressed w z ++ [[]]) := by
  have hsome : 0 < z.length := List.length_pos_iff.mpr (f.zlib_ne_nil z hz)
  rw [serveFile, hz, haccepts]
  dsimp only
  rw [if_pos hsome]

theorem serveFile_plain
    (h : f.zlib = none ∨ clientAcceptsCompression w.acceptEncoding compression = false) :
    serveFile w f = .chunked [(contentLength, w.left (sizeBuffer f.plain.length))]
      (sendUncompressed w f.plain ++ [[]]) := by
  unfold serveFile
  obtain hnone | hrefuses := h
  · rw [hnone]
  · rw [hrefuses]
    cases f.zlib <;> rfl

theorem contentLength_ne : contentLength ≠ contentEncoding := by decide

/-- What is sent compressed is carried, when its length is. -/
theorem carries_zlib (hz : f.zlib = some z) (h : w.Fails true z ∨ w.Keeps z.length) :
    Carries w f [(contentLength, w.left (sizeBuffer z.length)), (contentEncoding, compression)]
      (sendCompressed w z) true z where
  content := hz
  encoding := iff_of_true (List.mem_cons_of_mem _ List.mem_cons_self) rfl
  bounded := bounded_sendChunks
  whole hwhole := by
    have hturns : ∀ k, maximumChunkSize * k < z.length → true = true ∧ w.sends (0 + k) = true := by
      intro k hk
      rw [Nat.zero_add]
      exact ⟨rfl, Bool.not_eq_false _ ▸ fun hsend => hwhole ⟨k, hk, .inl hsend⟩⟩
    have hkeeps : w.left (Nat.toDigits 10 z.length) = Nat.toDigits 10 z.length :=
      h.resolve_left hwhole
    refine ⟨flatten_sendChunks hturns, ?_⟩
    rw [sizeBuffer_eq (f.zlib_small z hz), hkeeps]
    exact List.mem_cons_self

/-- And so is what is sent as it is. -/
theorem carries_plain (h : w.Fails false f.plain ∨ w.Keeps f.plain.length) :
    Carries w f [(contentLength, w.left (sizeBuffer f.plain.length))] (sendUncompressed w f.plain) false
      f.plain where
  content := rfl
  encoding := by
    refine iff_of_false (fun hmem => ?_) Bool.false_ne_true
    exact contentLength_ne (congrArg Prod.fst (List.mem_singleton.mp hmem)).symm
  bounded := bounded_sendChunks
  whole hwhole := by
    have hturns : ∀ k, maximumChunkSize * k < f.plain.length →
        w.reads (0 + k) = true ∧ w.sends (0 + k) = true := by
      intro k hk
      rw [Nat.zero_add, ← Bool.not_eq_false, ← Bool.not_eq_false]
      exact ⟨fun hread => hwhole ⟨k, hk, .inr ⟨rfl, hread⟩⟩, fun hsend => hwhole ⟨k, hk, .inl hsend⟩⟩
    have hkeeps : w.left (Nat.toDigits 10 f.plain.length) = Nat.toDigits 10 f.plain.length :=
      h.resolve_left hwhole
    refine ⟨flatten_sendChunks hturns, ?_⟩
    rw [sizeBuffer_eq f.plain_small, hkeeps]
    exact List.mem_cons_self

/-- **A length that is carried is still there.** -/
theorem Carries.keeps (h : Carries w f headers chunks compressed data) {size : ℕ}
    (hsize : size < 2 ^ 32) (hlength : data.length = size)
    (hheaders : ∀ v, (contentLength, v) ∈ headers → v = w.left (sizeBuffer size)) :
    w.Fails compressed data ∨ w.Keeps size := by
  by_cases hfails : w.Fails compressed data
  · exact Or.inl hfails
  · have hvalue := hheaders _ (h.whole hfails).2
    rw [sizeBuffer_eq hsize, hlength] at hvalue
    exact Or.inr hvalue.symm

end Files

/-! ## Answers -/

section Answers

variable {w : World} {path : CString} {f : File}

/-- A directory is answered right where its location does not fit, and only there. -/
theorem serves_directory (h : w.getEntry path = some .directory) :
    Serves w path (frogfsFileHandler w path).1 (frogfsFileHandler w path).2 ↔
      256 ≤ path.length + indexName.length := by
  have hindex : indexName.length = 11 := rfl
  by_cases hfits : path.length + indexName.length < 256
  · have hrun : frogfsFileHandler w path = (espOk, .redirect "301 Moved Permanently".toList
        "text/html".toList (.untouched w.newPath)) := by
      rw [frogfsFileHandler, h]
      exact if_neg (by omega)
    rw [hrun]
    refine iff_of_false (fun hserves => ?_) (by omega)
    cases hserves with
    | directory _ _ hwritten => cases hwritten.written 0 (Nat.zero_le _)
  · have hrun : frogfsFileHandler w path
        = (snprintfValue (path.length + indexName.length), .nothing) := by
      rw [frogfsFileHandler, h]
      exact if_pos (by omega)
    have hfailure : snprintfValue (path.length + indexName.length) ≠ espOk := by
      have hok : espOk = 0 := rfl
      rw [snprintfValue]
      split_ifs <;> omega
    rw [hrun]
    exact iff_of_true (.long h (Nat.not_lt.mp hfits) hfailure) (Nat.not_lt.mp hfits)

/-- The answer with a file that is open. -/
theorem frogfsFileHandler_file (h : w.getEntry path = some (.file f)) (hopens : w.opens = true) :
    frogfsFileHandler w path = (espOk, serveFile w f) := by
  rw [frogfsFileHandler, h]
  exact if_pos hopens

/-- **A compressed file is answered right where its length is kept.** -/
theorem serves_zlib {z : List UInt8} (h : w.getEntry path = some (.file f)) (hopens : w.opens = true)
    (hz : f.zlib = some z) (haccepts : clientAcceptsCompression w.acceptEncoding compression = true) :
    Serves w path (frogfsFileHandler w path).1 (frogfsFileHandler w path).2 ↔
      w.Fails true z ∨ w.Keeps z.length := by
  rw [frogfsFileHandler_file h hopens, serveFile_zlib hz haccepts]
  refine ⟨fun hserves => ?_, fun hleft => .file h hopens (carries_zlib hz hleft)⟩
  generalize hreply : Reply.chunked [(contentLength, w.left (sizeBuffer z.length)),
    (contentEncoding, compression)] (sendCompressed w z ++ [[]]) = reply at hserves
  cases hserves with
  | directory => cases hreply
  | long => cases hreply
  | @file f' headers chunks compressed data h' _ hcarries =>
    obtain rfl := Entry.file.inj (Option.some.inj (h.symm.trans h'))
    obtain ⟨rfl, -⟩ := Reply.chunked.inj hreply
    obtain rfl := hcarries.encoding.mp (List.mem_cons_of_mem _ List.mem_cons_self)
    obtain rfl : z = data := Option.some.inj (hz.symm.trans hcarries.content)
    refine hcarries.keeps (f.zlib_small z hz) rfl fun v hv => ?_
    obtain hv | hv := List.mem_cons.mp hv
    · exact congrArg Prod.snd hv
    · exact absurd (congrArg Prod.fst (List.mem_singleton.mp hv)) contentLength_ne

/-- **And so is one that is sent as it is.** -/
theorem serves_plain (h : w.getEntry path = some (.file f)) (hopens : w.opens = true)
    (hplain : f.zlib = none ∨ clientAcceptsCompression w.acceptEncoding compression = false) :
    Serves w path (frogfsFileHandler w path).1 (frogfsFileHandler w path).2 ↔
      w.Fails false f.plain ∨ w.Keeps f.plain.length := by
  rw [frogfsFileHandler_file h hopens, serveFile_plain hplain]
  refine ⟨fun hserves => ?_, fun hleft => .file h hopens (carries_plain hleft)⟩
  generalize hreply : Reply.chunked [(contentLength, w.left (sizeBuffer f.plain.length))]
    (sendUncompressed w f.plain ++ [[]]) = reply at hserves
  cases hserves with
  | directory => cases hreply
  | long => cases hreply
  | @file f' headers chunks compressed data h' _ hcarries =>
    obtain rfl := Entry.file.inj (Option.some.inj (h.symm.trans h'))
    obtain ⟨rfl, -⟩ := Reply.chunked.inj hreply
    have hheaders : ∀ x v, (x, v) ∈ [(contentLength, w.left (sizeBuffer f.plain.length))] →
        x = contentLength ∧ v = w.left (sizeBuffer f.plain.length) := by
      intro x v hmem
      exact Prod.mk.inj (List.mem_singleton.mp hmem)
    cases compressed with
    | true => exact absurd (hheaders _ _ (hcarries.encoding.mpr rfl)).1 contentLength_ne.symm
    | false =>
      obtain rfl : f.plain = data := hcarries.content
      exact hcarries.keeps f.plain_small rfl fun v hv => (hheaders _ _ hv).2

end Answers

/-- **A request is answered right exactly when the slips are not reached.** -/
theorem serves_iff_spared (w : World) (path : CString) :
    Serves w path (frogfsFileHandler w path).1 (frogfsFileHandler w path).2 ↔ SparedFrom w path := by
  unfold SparedFrom
  cases hentry : w.getEntry path with
  | none =>
    have hrun : frogfsFileHandler w path = (espFail, .nothing) := by rw [frogfsFileHandler, hentry]
    rw [hrun]
    exact iff_of_true (.nothing hentry) trivial
  | some entry =>
    cases entry with
    | directory => exact serves_directory hentry
    | file f =>
      cases hopens : w.opens with
      | false =>
        have hrun : frogfsFileHandler w path = (espFail, .nothing) := by
          rw [frogfsFileHandler, hentry]
          exact if_neg (by rw [hopens]; exact Bool.false_ne_true)
        rw [hrun]
        exact iff_of_true (.unopened hentry hopens) fun h => absurd h Bool.false_ne_true
      | true =>
        dsimp only
        rw [eq_self, true_imp_iff]
        cases hz : f.zlib with
        | none => exact serves_plain hentry hopens (.inl hz)
        | some z =>
          cases haccepts : clientAcceptsCompression w.acceptEncoding compression with
          | false => exact serves_plain hentry hopens (.inr haccepts)
          | true => exact serves_zlib hentry hopens hz haccepts

/-- Everything succeeds, there is only this entry, and what was in `size_buffer` is lost. -/
def forgetful (entry : Entry) : World where
  getEntry _ := some entry
  opens := true
  acceptEncoding := none
  sends _ := true
  reads _ := true
  newPath _ := 'x'
  left _ := []

/-- A file of one byte. -/
def oneByte : File where
  plain := [0]
  zlib := none
  plain_small := by decide
  zlib_small _ hz := by cases hz
  zlib_ne_nil _ hz := by cases hz

/-- **The location of a directory is sent without having been written**, and a length that was lost. -/
theorem not_serves_forgetful :
    (frogfsFileHandler (forgetful .directory) "/doc".toList
        = (espOk, .redirect "301 Moved Permanently".toList "text/html".toList
          (.untouched fun _ => 'x')) ∧
      ¬ Serves (forgetful .directory) "/doc".toList
        (frogfsFileHandler (forgetful .directory) "/doc".toList).1
        (frogfsFileHandler (forgetful .directory) "/doc".toList).2) ∧
    ¬ Serves (forgetful (.file oneByte)) "/doc".toList
      (frogfsFileHandler (forgetful (.file oneByte)) "/doc".toList).1
      (frogfsFileHandler (forgetful (.file oneByte)) "/doc".toList).2 := by
  refine ⟨⟨rfl, fun hserves => ?_⟩, fun hserves => ?_⟩
  · have hlong := (serves_directory rfl).mp hserves
    exact absurd hlong (by decide)
  · obtain ⟨n, -, hsend | hread⟩ | hkeeps := (serves_plain rfl rfl (.inl rfl)).mp hserves
    · cases hsend
    · cases hread.2
    · exact absurd hkeeps (by simp [World.Keeps, forgetful, oneByte])

end Web

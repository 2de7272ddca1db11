import FrameProcessor.Foundations.Ownership

/-!
# utils/frame_saver - What encoding a picture allocates

`encode_and_save_jpeg` frees by hand what it allocates, on each of its error paths and at its
end.  What the library calls return is open; the pixel format of the frame decides whether it
is converted first.  The results of `sws_scale`, `fwrite` and `fclose` are not looked at.

An access that only reads an object is a `use` here, one that may change it a `write`.

Main results:

- Theorem `FrameSaver.encodeAndSaveJpeg_frees`: whatever fails, nothing is freed twice, used
  after it was freed or left behind, at most four objects are live at a time, and the frame is
  only read; the result says whether every call that is looked at succeeded, which is less
  than that the file holds the picture.
-/

namespace FrameProcessor

open Ownership

/-- What `encode_and_save_jpeg` allocates or is handed. -/
inductive JpegObject where
  | codecContext
  | frame
  | swsContext
  | packet
  | file
deriving DecidableEq

/-- What becomes of the file. -/
inductive JpegFile where
  /-- It has not been opened. -/
  | untouched
  /-- Not every byte has reached it. -/
  | incomplete
  /-- It holds a picture, but not that of the frame. -/
  | distorted
  | complete
deriving DecidableEq

/-- Which of the library calls succeed; `fwrite` succeeds when it writes every byte. -/
structure JpegCalls where
  findEncoder : Bool
  allocContext3 : Bool
  open2 : Bool
  frameAlloc : Bool
  frameGetBuffer : Bool
  swsGetContext : Bool
  swsScale : Bool
  packetAlloc : Bool
  sendFrame : Bool
  receivePacket : Bool
  fopen : Bool
  fwrite : Bool
  fclose : Bool

namespace FrameSaver

/-- `AV_PIX_FMT_YUVJ420P` -/
def avPixFmtYuvj420p : Int32 := 12

/-- The file once it has been written and closed; `converted` tells whether the picture in the
packet is that of the frame. -/
def fileAfter (calls : JpegCalls) (converted : Bool) : JpegFile :=
  if calls.fwrite && calls.fclose then
    if converted then .complete else .distorted
  else .incomplete

/-- Writing the packet to the file; what `fwrite` and `fclose` report is not looked at. -/
def writeFile (calls : JpegCalls) (codecCtx : Handle JpegObject)
    (convertFrame : Option (Handle JpegObject)) (converted : Bool) (pkt : Handle JpegObject) :
    Routine JpegObject (Bool × JpegFile) := do
  match ← tryAcquire calls.fopen .file with
  | none =>
      release pkt
      free convertFrame
      release codecCtx
      return (false, .untouched)
  | some file =>
      use pkt
      write file
      release file
      release pkt
      free convertFrame
      release codecCtx
      return (true, fileAfter calls converted)

/-- Encoding and writing; `convertFrame` is null when the frame is encoded as it is. -/
def encodeFrame (calls : JpegCalls) (frame codecCtx : Handle JpegObject)
    (convertFrame : Option (Handle JpegObject)) (converted : Bool) :
    Routine JpegObject (Bool × JpegFile) := do
  match ← tryAcquire calls.packetAlloc .packet with
  | none =>
      free convertFrame
      release codecCtx
      return (false, .untouched)
  | some pkt =>
      write codecCtx
      use (convertFrame.getD frame)
      if calls.sendFrame then
        write codecCtx
        write pkt
        if calls.receivePacket then
          writeFile calls codecCtx convertFrame converted pkt
        else
          release pkt
          free convertFrame
          release codecCtx
          return (false, .untouched)
      else
        release pkt
        free convertFrame
        release codecCtx
        return (false, .untouched)

/-- Converting the frame to YUVJ420P before it is encoded; what `sws_scale` reports is not looked
at. -/
def convertAndEncode (calls : JpegCalls) (frame codecCtx : Handle JpegObject) :
    Routine JpegObject (Bool × JpegFile) := do
  match ← tryAcquire calls.frameAlloc .frame with
  | none =>
      release codecCtx
      return (false, .untouched)
  | some convertFrame =>
      use frame
      write convertFrame
      if calls.frameGetBuffer then
        use frame
        match ← tryAcquire calls.swsGetContext .swsContext with
        | none =>
            release convertFrame
            release codecCtx
            return (false, .untouched)
        | some swsCtx =>
            write swsCtx
            use frame
            write convertFrame
            release swsCtx
            encodeFrame calls frame codecCtx (some convertFrame) calls.swsScale
      else
        release convertFrame
        release codecCtx
        return (false, .untouched)

/-- `FrameSaver::encode_and_save_jpeg` for a frame of a pixel format, with what becomes of the
file. -/
def encodeAndSaveJpeg (calls : JpegCalls) (frame : Handle JpegObject) (format : Int32) :
    Routine JpegObject (Bool × JpegFile) := do
  if calls.findEncoder then
    match ← tryAcquire calls.allocContext3 .codecContext with
    | none => return (false, .untouched)
    | some codecCtx =>
        use frame
        write codecCtx
        if calls.open2 then
          if format != avPixFmtYuvj420p then
            convertAndEncode calls frame codecCtx
          else
            encodeFrame calls frame codecCtx none true
        else
          release codecCtx
          return (false, .untouched)
  else
    return (false, .untouched)

/-! ## Every path frees what it has allocated -/

variable {calls : JpegCalls} {frame codecCtx pkt : Handle JpegObject}
  {convertFrame : Option (Handle JpegObject)} {converted : Bool}

/-- The calls after the conversion that are looked at. -/
def encodes (calls : JpegCalls) : Bool :=
  calls.packetAlloc && calls.sendFrame && calls.receivePacket && calls.fopen

/-- The calls of the conversion that are looked at. -/
def converts (calls : JpegCalls) : Bool :=
  calls.frameAlloc && calls.frameGetBuffer && calls.swsGetContext

/-- What a path returns: whether it has got to the end, and the file if it has. -/
def outcome (calls : JpegCalls) (saved converted : Bool) : Bool × JpegFile :=
  (saved, if saved then fileAfter calls converted else .untouched)

/-- The frees at the end of a path. -/
theorem cleanup_obeys {result : Bool × JpegFile} (h : codecCtx ∉ convertFrame.toFinset) :
    Obeys {frame} (insert codecCtx convertFrame.toFinset) 4
      (do free convertFrame; release codecCtx; return result :
        Routine JpegObject (Bool × JpegFile))
      fun a T => T = ∅ ∧ a = result := by
  have hrest : insert codecCtx convertFrame.toFinset \ convertFrame.toFinset = {codecCtx} := by
    rw [Finset.insert_sdiff_of_notMem _ h, Finset.sdiff_self]
    rfl
  refine .free_bind (Finset.subset_insert _ _) ?_
  rw [hrest]
  exact .release_bind (Finset.mem_singleton_self _) (.pure ⟨Finset.erase_singleton _, rfl⟩)

/-- The frees at the end of a path that has a packet. -/
theorem cleanupPacket_obeys {result : Bool × JpegFile} (h : codecCtx ∉ convertFrame.toFinset)
    (hpkt : pkt ∉ insert codecCtx convertFrame.toFinset) :
    Obeys {frame} (insert pkt (insert codecCtx convertFrame.toFinset)) 4
      (do release pkt; free convertFrame; release codecCtx; return result :
        Routine JpegObject (Bool × JpegFile)) fun a T => T = ∅ ∧ a = result := by
  refine .release_bind (Finset.mem_insert_self _ _) ?_
  rw [Finset.erase_insert hpkt]
  exact cleanup_obeys h

/-- An encoder, perhaps a converted frame, a packet and a file are four objects. -/
theorem card_lt (h : codecCtx ∉ convertFrame.toFinset) :
    (insert pkt (insert codecCtx convertFrame.toFinset)).card < 4 := by
  have hframe : convertFrame.toFinset.card ≤ 1 := by
    cases convertFrame <;> simp
  have hcodec := Finset.card_insert_le codecCtx convertFrame.toFinset
  have hpkt := Finset.card_insert_le pkt (insert codecCtx convertFrame.toFinset)
  omega

theorem writeFile_obeys (h : codecCtx ∉ convertFrame.toFinset)
    (hpkt : pkt ∉ insert codecCtx convertFrame.toFinset) :
    Obeys {frame} (insert pkt (insert codecCtx convertFrame.toFinset)) 4
      (writeFile calls codecCtx convertFrame converted pkt)
      fun a T => T = ∅ ∧ a = outcome calls calls.fopen converted := by
  refine .tryAcquire_bind (card_lt h) (fun hopen file hfile => ?_) (fun hopen => ?_)
  · refine .use_bind (by simp) (.write_bind (by simp) (.release_bind (by simp) ?_))
    rw [Finset.erase_insert hfile, hopen]
    exact cleanupPacket_obeys h hpkt
  · rw [hopen]
    exact cleanupPacket_obeys h hpkt

theorem encodeFrame_obeys (h : codecCtx ∉ convertFrame.toFinset) :
    Obeys {frame} (insert codecCtx convertFrame.toFinset) 4
      (encodeFrame calls frame codecCtx convertFrame converted)
      fun a T => T = ∅ ∧ a = outcome calls (encodes calls) converted := by
  refine .tryAcquire_bind ?_ (fun halloc pkt hpkt => ?_) (fun halloc => ?_)
  · exact (Finset.card_le_card (Finset.subset_insert codecCtx _)).trans_lt (card_lt h)
  · have hsource : convertFrame.getD frame ∈ ({frame} : Finset _) ∨
        convertFrame.getD frame ∈ insert pkt (insert codecCtx convertFrame.toFinset) := by
      cases convertFrame <;> simp
    refine .write_bind (by simp) (.use_bind hsource (.ite (fun hsend => ?_) fun hsend => ?_))
    · refine .write_bind (by simp) (.write_bind (by simp) ?_)
      refine .ite (fun hreceive => ?_) fun hreceive => ?_
      · simp only [encodes, halloc, hsend, hreceive]
        exact writeFile_obeys h hpkt
      · simp only [encodes, hreceive, Bool.and_false, Bool.false_and]
        exact cleanupPacket_obeys h hpkt
    · simp only [encodes, hsend, Bool.and_false, Bool.false_and]
      exact cleanupPacket_obeys h hpkt
  · simp only [encodes, halloc]
    exact cleanup_obeys h

/-- The frees when there is no packet yet. -/
theorem cleanupFrame_obeys {o : Handle JpegObject} (h : o ≠ codecCtx) :
    Obeys {frame} {o, codecCtx} 4
      (do release o; release codecCtx; return (false, .untouched) :
        Routine JpegObject (Bool × JpegFile))
      fun a T => T = ∅ ∧ a = (false, .untouched) := by
  refine .release_bind (by simp) ?_
  rw [Finset.erase_insert (by simpa using h)]
  exact .release_bind (by simp) (.pure ⟨Finset.erase_singleton _, rfl⟩)

theorem convertAndEncode_obeys :
    Obeys {frame} {codecCtx} 4 (convertAndEncode calls frame codecCtx)
      fun a T => T = ∅ ∧ a = outcome calls (converts calls && encodes calls) calls.swsScale := by
  refine .tryAcquire_bind (by simp) (fun halloc convertFrame hframe => ?_) fun halloc => ?_
  · have hne : convertFrame ≠ codecCtx := by simpa using hframe
    refine .use_bind (by simp) (.write_bind (by simp) (.ite (fun hbuffer => ?_) fun hbuffer => ?_))
    · refine .use_bind (by simp) (.tryAcquire_bind (Finset.card_le_two.trans_lt (by decide))
        (fun hsws swsCtx hswsCtx => ?_) fun hsws => ?_)
      · refine .write_bind (by simp) (.use_bind (by simp) (.write_bind (by simp)
          (.release_bind (by simp) ?_)))
        rw [Finset.erase_insert hswsCtx, Finset.pair_comm]
        simp only [converts, halloc, hbuffer, hsws]
        have hcodec : codecCtx ∉ (some convertFrame).toFinset := by simpa using hne.symm
        exact encodeFrame_obeys hcodec
      · simp only [converts, hsws, Bool.and_false, Bool.false_and]
        exact cleanupFrame_obeys hne
    · simp only [converts, hbuffer, Bool.and_false, Bool.false_and]
      exact cleanupFrame_obeys hne
  · simp only [converts, halloc, Bool.false_and]
    exact .release_bind (by simp) (.pure ⟨Finset.erase_singleton _, rfl⟩)

/-- The calls whose results are looked at all succeed, as far as a frame of a pixel format needs
them. -/
def checkedCalls (calls : JpegCalls) (format : Int32) : Bool :=
  calls.findEncoder && calls.allocContext3 && calls.open2 &&
    (format == avPixFmtYuvj420p || converts calls) && encodes calls

theorem encodeAndSaveJpeg_obeys (calls : JpegCalls) (frame : Handle JpegObject) (format : Int32) :
    Obeys {frame} ∅ 4 (encodeAndSaveJpeg calls frame format) fun a T => T = ∅ ∧
      a = outcome calls (checkedCalls calls format)
        (format == avPixFmtYuvj420p || calls.swsScale) := by
  refine .ite (fun hfind => ?_) fun hfind => ?_
  · refine .tryAcquire_bind (by simp) (fun halloc codecCtx hcodec => ?_) fun halloc => ?_
    · rw [insert_empty_eq]
      refine .use_bind (by simp) (.write_bind (by simp) (.ite (fun hopen => ?_) fun hopen => ?_))
      · refine .ite (fun hformat => ?_) fun hformat => ?_
        · have hneeded : (format == avPixFmtYuvj420p) = false := by simpa using hformat
          simp only [checkedCalls, hfind, halloc, hopen, hneeded, Bool.false_or, Bool.true_and]
          exact convertAndEncode_obeys
        · have hneeded : (format == avPixFmtYuvj420p) = true := by simpa using hformat
          simp only [checkedCalls, hfind, halloc, hopen, hneeded, Bool.true_or, Bool.true_and]
          have hnone : codecCtx ∉ (none : Option (Handle JpegObject)).toFinset :=
            Finset.notMem_empty _
          exact encodeFrame_obeys hnone
      · simp only [checkedCalls, hopen, Bool.and_false, Bool.false_and]
        exact .release_bind (by simp) (.pure ⟨Finset.erase_singleton _, rfl⟩)
    · simp only [checkedCalls, halloc, Bool.and_false, Bool.false_and]
      exact .pure ⟨rfl, rfl⟩
  · simp only [checkedCalls, hfind, Bool.false_and]
    exact .pure ⟨rfl, rfl⟩

/-- The file holds the picture of the frame: the calls that are looked at succeed, and those that
are not do as well. -/
def FileComplete (calls : JpegCalls) (format : Int32) : Prop :=
  checkedCalls calls format = true ∧ (format = avPixFmtYuvj420p ∨ calls.swsScale = true) ∧
    calls.fwrite = true ∧ calls.fclose = true

theorem outcome_complete_iff (format : Int32) :
    (outcome calls (checkedCalls calls format)
        (format == avPixFmtYuvj420p || calls.swsScale)).2 = .complete ↔
      FileComplete calls format := by
  unfold outcome fileAfter FileComplete
  cases checkedCalls calls format with
  | false => simp
  | true => cases calls.fwrite <;> cases calls.fclose <;> simp [or_iff_not_imp_left]

/-- Whatever the library calls return: no object is used or freed after it was freed, everything
allocated is freed, at most four objects more are live at a time, the frame and what else was
live before are not changed, the result is `true` exactly when every call that is looked at
succeeded, and the file holds the picture exactly when `sws_scale`, where it is needed, `fwrite`
and `fclose` succeeded too. -/
theorem encodeAndSaveJpeg_frees (calls : JpegCalls) (frame : Handle JpegObject) (format : Int32)
    (l : Ledger JpegObject) (hframe : frame ∈ l.live) :
    ∃ file l', encodeAndSaveJpeg calls frame format l =
        some ((checkedCalls calls format, file), l') ∧
      (file = .complete ↔ FileComplete calls format) ∧ l'.live = l.live ∧
      l'.peak ≤ max l.peak (l.live.card + 4) ∧ ∀ o ∈ l.live, o ∈ l'.written → o ∈ l.written := by
  rcases (encodeAndSaveJpeg_obeys calls frame format).exists_run_spares
    (Finset.singleton_subset_iff.mpr hframe) with ⟨a, l', hrun, rfl, hlive, hpeak, hwritten⟩
  exact ⟨_, l', hrun, outcome_complete_iff format, hlive, hpeak, hwritten⟩

/-- Every call that is looked at succeeds, and the disk is full. -/
def fullDisk : JpegCalls where
  findEncoder := true
  allocContext3 := true
  open2 := true
  frameAlloc := true
  frameGetBuffer := true
  swsGetContext := true
  swsScale := true
  packetAlloc := true
  sendFrame := true
  receivePacket := true
  fopen := true
  fwrite := false
  fclose := true

/-- Of a frame in YUV420P the result is `true`, and the file is not complete. -/
theorem encodeAndSaveJpeg_frees_fullDisk :
    ∃ file l', encodeAndSaveJpeg fullDisk ⟨.frame, 0⟩ 0 (Ledger.empty.add .frame) =
        some ((true, file), l') ∧
      file ≠ .complete ∧ l'.live = (Ledger.empty.add JpegObject.frame).live ∧
      ⟨.frame, 0⟩ ∉ l'.written := by
  rcases encodeAndSaveJpeg_frees fullDisk ⟨.frame, 0⟩ 0 (Ledger.empty.add .frame)
    (Finset.mem_insert_self _ _) with ⟨file, l', hrun, hfile, hlive, -, hwritten⟩
  refine ⟨file, l', hrun, fun hcomplete => ?_, hlive, fun hmem => ?_⟩
  · exact absurd (hfile.mp hcomplete).2.2.1 (by decide)
  · exact absurd (hwritten _ (Finset.mem_insert_self _ _) hmem) (Finset.notMem_empty _)

end FrameSaver

end FrameProcessor

import Mathlib.Tactic.MkIffOfInductiveProp
import FrameProcessor.ConfigManager.Reload
import FrameProcessor.Foundations.Ownership

/-!
# components/config_manager - Fetching the configuration

`fetch_config_from_api` receives the response in pieces, which libcurl hands to
`write_callback`.  The reloader sees either the whole response or none: a transfer that is
cut off, a piece that cannot be stored and every status but 200 end in `std::nullopt`.

`reloader_loop` is here a program with the handles it allocates.  What it does to the files
and to the configuration is a run of the reload machine, whose poll is given the responses
that have been received completely.

Main results:

- Theorem `ApiFetch.performTransfer_ok`: what a completed transfer leaves in the buffer.
- Theorem `ApiFetch.fetchConfigFromApi_obeys`: a fetch yields the response if it is complete,
  and frees its handle.
- Theorem `ApiFetch.reloaderLoop_refines`: the loop is a run of the reload machine, with at most
  one handle at a time and none at the end.
- Theorem `ApiFetch.reloaderLoop_incomplete`: an API that fails is as good as none.
-/

namespace FrameProcessor

open Ownership

/-- What a fetch allocates. -/
inductive CurlObject where
  | easyHandle
deriving DecidableEq

/-- The results of a transfer that the program can tell from each other. -/
inductive CurlCode where
  | ok
  | writeError
  | other
deriving DecidableEq

/-- A piece of a response, and whether there is memory to append it. -/
structure ResponsePiece where
  contents : Bytes
  appends : Bool
  /-- Its length is a `size_t`. -/
  fits : contents.length < 2 ^ 64

/-- What the calls of a fetch return; `res` is the result of a transfer all of whose pieces the
callback takes. -/
structure FetchCalls where
  easyInit : Bool
  pieces : List ResponsePiece
  res : CurlCode
  /-- It remains 0 if libcurl does not know it. -/
  httpCode : Int64

/-- The response is received completely. -/
@[mk_iff]
structure FetchCalls.Complete (calls : FetchCalls) : Prop where
  easyInit : calls.easyInit = true
  appends : ∀ piece ∈ calls.pieces, piece.appends = true ∨ piece.contents = []
  res : calls.res = .ok
  httpCode : calls.httpCode = 200

instance (calls : FetchCalls) : Decidable calls.Complete :=
  decidable_of_iff' _ (FetchCalls.complete_iff calls)

/-- All pieces of the response. -/
def FetchCalls.body (calls : FetchCalls) : Bytes :=
  calls.pieces.flatMap ResponsePiece.contents

/-- The response, if it is received completely. -/
def FetchCalls.received (calls : FetchCalls) : Option Bytes :=
  if calls.Complete then some calls.body else none

namespace ApiFetch

/-- `write_callback`: the number of bytes handled, and what `userp` points to. -/
def writeCallback (contents : Bytes) (size nmemb : UInt64) (userp : Option Bytes)
    (appends : Bool) : UInt64 × Option Bytes :=
  match userp with
  | none => (0, none)
  | some buffer =>
      if appends then (size * nmemb, some (buffer ++ contents.take (size * nmemb).toNat))
      else (0, some buffer)

/-- `curl_easy_perform`: it gives up when the callback has not handled a whole piece. -/
def performTransfer (res : CurlCode) :
    List ResponsePiece → Option Bytes → CurlCode × Option Bytes
  | [], userp => (res, userp)
  | piece :: pieces, userp =>
      let nmemb := UInt64.ofNat piece.contents.length
      match writeCallback piece.contents 1 nmemb userp piece.appends with
      | (handled, userp) =>
          if handled = nmemb then performTransfer res pieces userp else (.writeError, userp)

/-- `ConfigManager::fetch_config_from_api` -/
def fetchConfigFromApi (calls : FetchCalls) : Routine CurlObject (Option Bytes) :=
  holding calls.easyInit .easyHandle fun curl => do
    match curl with
    | none => return none
    | some curl =>
        use curl
        match performTransfer calls.res calls.pieces (some []) with
        | (.ok, readBuffer) =>
            use curl
            if calls.httpCode ≠ 200 then return none else return readBuffer
        | _ => return none

/-! ## What is received -/

variable {pieces : List ResponsePiece} {res : CurlCode}

/-- The callback takes a piece completely if it can store it, or there is nothing to store. -/
theorem writeCallback_eq (piece : ResponsePiece) (buffer : Bytes) :
    writeCallback piece.contents 1 (UInt64.ofNat piece.contents.length) (some buffer)
        piece.appends =
      if piece.appends then
        (UInt64.ofNat piece.contents.length, some (buffer ++ piece.contents))
      else (0, some buffer) := by
  have hlength : (UInt64.ofNat piece.contents.length).toNat = piece.contents.length :=
    UInt64.toNat_ofNat_of_lt' piece.fits
  simp only [writeCallback, UInt64.one_mul, hlength, List.take_length]

/-- A piece that is not stored is missed unless it is empty. -/
theorem zero_eq_length_iff (piece : ResponsePiece) :
    0 = UInt64.ofNat piece.contents.length ↔ piece.contents = [] := by
  rw [eq_comm, ← UInt64.toNat_inj, UInt64.toNat_ofNat_of_lt' piece.fits, UInt64.toNat_zero]
  exact List.length_eq_zero_iff

/-- A transfer is completed exactly when every piece could be stored and libcurl reports
success. -/
theorem performTransfer_ok {buffer : Bytes} {userp : Option Bytes} :
    performTransfer res pieces (some buffer) = (.ok, userp) ↔
      (∀ piece ∈ pieces, piece.appends = true ∨ piece.contents = []) ∧ res = .ok ∧
        userp = some (buffer ++ pieces.flatMap ResponsePiece.contents) := by
  induction pieces generalizing buffer with
  | nil => simp [performTransfer, @eq_comm _ userp]
  | cons piece pieces ih =>
      rw [performTransfer, writeCallback_eq]
      cases happends : piece.appends with
      | true => simp [ih, happends, List.append_assoc]
      | false =>
          by_cases hempty : piece.contents = []
          · have hlength := (zero_eq_length_iff piece).mpr hempty
            simp [hlength, ih, hempty]
          · have hlength := mt (zero_eq_length_iff piece).mp hempty
            simp [hlength, happends, hempty]

variable {T : Finset (Handle CurlObject)} {n : ℕ}

/-- A complete response is one whose transfer succeeds with the status 200. -/
theorem complete_iff_transfer {calls : FetchCalls} (hinit : calls.easyInit = true) :
    calls.Complete ↔
      performTransfer calls.res calls.pieces (some []) = (.ok, some calls.body) ∧
        calls.httpCode = 200 := by
  rw [performTransfer_ok, FetchCalls.complete_iff]
  simp only [FetchCalls.body, List.nil_append, and_true, hinit, true_and, and_assoc]

/-- A fetch yields the response if it is complete, and frees its handle. -/
theorem fetchConfigFromApi_obeys (calls : FetchCalls) (hn : T.card < n) :
    Obeys ∅ T n (fetchConfigFromApi calls) fun body T' => T' = T ∧ body = calls.received := by
  refine .holding hn fun o hsome hdisj => ?_
  cases o with
  | none =>
      refine .pure ⟨T, rfl, hdisj, rfl, ?_⟩
      have hnot : ¬ calls.Complete := fun h => by
        rw [h.easyInit] at hsome
        cases hsome
      exact (if_neg hnot).symm
  | some curl =>
      have hcomplete := complete_iff_transfer hsome.symm
      refine .use_bind (by simp) ?_
      cases hrun : performTransfer calls.res calls.pieces (some []) with
      | mk code readBuffer =>
          cases code with
          | ok =>
              have hbuffer : readBuffer = some calls.body := (performTransfer_ok.mp hrun).2.2
              subst hbuffer
              refine .use_bind (by simp) ?_
              by_cases hcode : calls.httpCode = 200
              · rw [if_neg (not_not_intro hcode)]
                refine .pure ⟨T, rfl, hdisj, rfl, ?_⟩
                exact (if_pos (hcomplete.mpr ⟨hrun, hcode⟩)).symm
              · rw [if_pos hcode]
                refine .pure ⟨T, rfl, hdisj, rfl, ?_⟩
                exact (if_neg fun h => hcode h.httpCode).symm
          | writeError | other =>
              refine .pure ⟨T, rfl, hdisj, rfl, ?_⟩
              have hnot : ¬ calls.Complete := fun h => by
                have hok := (hcomplete.mp h).1
                rw [hrun] at hok
                cases hok
              exact (if_neg hnot).symm

/-! ## The reloader -/

/-- What happens in a cycle: what others write into the file before the poll and after it, what
the fetch returns, and how the file operations end. -/
structure CycleCalls where
  before : List (Option Bytes)
  fetch : FetchCalls
  ops : ConfigManager.FileOps
  after : List (Option Bytes)

/-- The file after others have written it. -/
def edited (s : Reloader) (edits : List (Option Bytes)) : Reloader :=
  edits.foldl (fun s config => { s with files := { s.files with config } }) s

/-- The first part of a cycle, with the handle that it allocates. -/
def pollApi (lib : Simdjson) (apiUrl : Bytes) (calls : CycleCalls) (s : Reloader) :
    Routine CurlObject (Option Reloader) :=
  if apiUrl.isEmpty then return ConfigManager.poll lib none s
  else do
    let apiJsonOpt ← fetchConfigFromApi calls.fetch
    return ConfigManager.poll lib (apiJsonOpt.map fun apiJsonStr => (apiJsonStr, calls.ops)) s

/-- The cycles of `ConfigManager::reloader_loop`; `none` when an exception leaves it. -/
def reloaderLoop (self : ConfigManager) (lib : Simdjson) (apiUrl : Bytes) :
    List CycleCalls → Reloader → Routine CurlObject (Option Reloader)
  | [], s => return some s
  | calls :: rest, s => do
      match ← pollApi lib apiUrl calls (edited s calls.before) with
      | none => return none
      | some s => reloaderLoop self lib apiUrl rest (self.check lib (edited s calls.after))

/-- The response that a cycle polls. -/
def response (apiUrl : Bytes) (calls : CycleCalls) : Option (Bytes × ConfigManager.FileOps) :=
  if apiUrl.isEmpty then none
  else calls.fetch.received.map fun apiJsonStr => (apiJsonStr, calls.ops)

/-- A cycle as steps of the reload machine. -/
def cycleActions (apiUrl : Bytes) (calls : CycleCalls) : List ConfigManager.ReloadAction :=
  calls.before.map .edit ++ .poll (response apiUrl calls) :: (calls.after.map .edit ++ [.check])

theorem pollApi_obeys (lib : Simdjson) (apiUrl : Bytes) (calls : CycleCalls) (s : Reloader)
    (hn : T.card < n) :
    Obeys ∅ T n (pollApi lib apiUrl calls s) fun result T' =>
      T' = T ∧ result = ConfigManager.poll lib (response apiUrl calls) s := by
  refine .ite (fun hempty => .pure ⟨rfl, by simp [response, hempty]⟩) fun hurl => ?_
  refine (fetchConfigFromApi_obeys calls.fetch hn).bind ?_
  rintro body T' ⟨rfl, rfl⟩
  exact .pure ⟨rfl, by simp [response, hurl]⟩

variable {self : ConfigManager} {lib : Simdjson} {apiUrl : Bytes} {s s' : Reloader}

theorem edited_phase (s : Reloader) (edits : List (Option Bytes)) :
    (edited s edits).phase = s.phase := by
  induction edits generalizing s with
  | nil => rfl
  | cons config edits ih => exact ih _

theorem exec_edits (s : Reloader) (edits : List (Option Bytes)) :
    (self.reloadMachine lib).exec s (edits.map .edit) = some (edited s edits) := by
  induction edits generalizing s with
  | nil => rfl
  | cons config edits ih => exact ih _

/-- After a poll that returns, the reloader is about to read the file. -/
theorem poll_phase {response : Option (Bytes × ConfigManager.FileOps)}
    (h : ConfigManager.poll lib response s = some s') : s'.phase = .polled := by
  unfold ConfigManager.poll at h
  split at h
  · cases h
    rfl
  · split at h
    · cases h
      rfl
    · cases h

/-- A check leaves the reloader waiting. -/
theorem check_phase (s : Reloader) : (self.check lib s).phase = .waiting := by
  unfold ConfigManager.check
  split
  · rfl
  · split <;> rfl

theorem step_poll {response : Option (Bytes × ConfigManager.FileOps)} (hs : s.phase = .waiting) :
    (self.reloadMachine lib).step s (.poll response) = ConfigManager.poll lib response s := by
  simp only [ConfigManager.reloadMachine, hs]

theorem step_check (hs : s.phase = .polled) :
    (self.reloadMachine lib).step s .check = some (self.check lib s) := by
  simp only [ConfigManager.reloadMachine, hs]

/-- The steps of a cycle, from a waiting reloader on. -/
theorem exec_cycle (calls : CycleCalls) (hs : s.phase = .waiting) :
    (self.reloadMachine lib).exec s (cycleActions apiUrl calls) =
      (ConfigManager.poll lib (response apiUrl calls) (edited s calls.before)).map
        fun s' => self.check lib (edited s' calls.after) := by
  have hwaiting : (edited s calls.before).phase = .waiting := (edited_phase s _).trans hs
  rw [cycleActions, Machine.exec_append, exec_edits, Option.bind_some, Machine.exec_cons,
    step_poll hwaiting]
  cases hpoll : ConfigManager.poll lib (response apiUrl calls) (edited s calls.before) with
  | none => rfl
  | some s' =>
      have hpolled : (edited s' calls.after).phase = .polled :=
        (edited_phase s' _).trans (poll_phase hpoll)
      rw [Option.bind_some, Machine.exec_append, exec_edits, Option.bind_some, Machine.exec_cons,
        step_check hpolled]
      rfl

/-- The loop does what the reload machine does on the responses received. -/
theorem reloaderLoop_obeys (cycles : List CycleCalls) (hs : s.phase = .waiting)
    (hn : T.card < n) :
    Obeys ∅ T n (reloaderLoop self lib apiUrl cycles s) fun result T' => T' = T ∧
      result = (self.reloadMachine lib).exec s (cycles.flatMap (cycleActions apiUrl)) := by
  induction cycles generalizing s with
  | nil => exact .pure ⟨rfl, rfl⟩
  | cons calls rest ih =>
      refine (pollApi_obeys lib apiUrl calls (edited s calls.before) hn).bind ?_
      rintro result T' ⟨rfl, rfl⟩
      rw [List.flatMap_cons, Machine.exec_append, exec_cycle calls hs]
      cases ConfigManager.poll lib (response apiUrl calls) (edited s calls.before) with
      | none => exact .pure ⟨rfl, rfl⟩
      | some s' => exact ih (check_phase _)

/-- For every sequence of cycles, whatever libcurl returns, the file operations do and others
write: the reloader frees its handles, has never more than one, and does to the configuration
and to the files what the reload machine does on the responses that were received completely. -/
theorem reloaderLoop_refines (self : ConfigManager) (lib : Simdjson) (apiUrl : Bytes)
    (cycles : List CycleCalls) {s : Reloader} (hs : s.phase = .waiting)
    (l : Ledger CurlObject) :
    ∃ result l', reloaderLoop self lib apiUrl cycles s l = some (result, l') ∧
      result = (self.reloadMachine lib).exec s (cycles.flatMap (cycleActions apiUrl)) ∧
      l'.live = l.live ∧ l'.peak ≤ max l.peak (l.live.card + 1) :=
  (reloaderLoop_obeys cycles hs (by simp)).exists_run (Finset.empty_subset _)

/-- A response in two pieces; the second one may be too much for the memory. -/
def cutResponse (appends : Bool) : FetchCalls where
  easyInit := true
  pieces := [⟨ConfigManager.sameStreamsText.take 6, true, by decide⟩,
    ⟨ConfigManager.sameStreamsText.drop 6, appends, by decide⟩]
  res := .ok
  httpCode := 200

/-- A cycle in which nobody else writes and the file operations succeed. -/
def quietCycle (fetch : FetchCalls) : CycleCalls where
  before := []
  fetch
  ops := .success
  after := []

/-- The first response is put together and merged, the second one is dropped. -/
theorem reloaderLoop_refines_cut :
    ∃ result l', reloaderLoop {} ConfigManager.sampleLibrary (Bytes.ofString "http://api")
        [quietCycle (cutResponse true), quietCycle (cutResponse false)]
        { phase := .waiting, files := ⟨some ConfigManager.emptyConfigText, none⟩ }
        Ledger.empty = some (some result, l') ∧
      result.files = ⟨some ConfigManager.emptyMergedText, none⟩ ∧ l'.live = ∅ ∧ l'.peak ≤ 1 := by
  rcases reloaderLoop_refines {} ConfigManager.sampleLibrary (Bytes.ofString "http://api")
    [quietCycle (cutResponse true), quietCycle (cutResponse false)]
    (s := { phase := .waiting, files := ⟨some ConfigManager.emptyConfigText, none⟩ }) rfl
    Ledger.empty with ⟨result, l', hrun, hresult, hlive, hpeak⟩
  have hexec : ∃ t, ((({} : ConfigManager).reloadMachine ConfigManager.sampleLibrary).exec
      { phase := .waiting, files := ⟨some ConfigManager.emptyConfigText, none⟩ }
      ([quietCycle (cutResponse true), quietCycle (cutResponse false)].flatMap
        (cycleActions (Bytes.ofString "http://api")))) = some t ∧
      t.files = ⟨some ConfigManager.emptyMergedText, none⟩ := ⟨_, rfl, rfl⟩
  rcases hexec with ⟨t, hexec, hfiles⟩
  rw [hexec] at hresult
  subst hresult
  exact ⟨t, l', hrun, hfiles, hlive, by simpa [Ledger.empty] using hpeak⟩

/-! ## An API that fails -/

/-- A cycle whose response is not received completely is one without an API. -/
theorem cycleActions_incomplete {calls : CycleCalls} (h : ¬ calls.fetch.Complete) :
    cycleActions apiUrl calls = cycleActions [] calls := by
  have hreceived : calls.fetch.received = none := if_neg h
  simp [cycleActions, response, hreceived]

/-- As long as no response is received completely, the reloader does what it would do without an
API. -/
theorem reloaderLoop_incomplete (cycles : List CycleCalls)
    (hcycles : ∀ calls ∈ cycles, ¬ calls.fetch.Complete) (hs : s.phase = .waiting)
    (l : Ledger CurlObject) :
    ∃ result l' l'', reloaderLoop self lib apiUrl cycles s l = some (result, l') ∧
      reloaderLoop self lib [] cycles s l = some (result, l'') := by
  have hsame : cycles.flatMap (cycleActions apiUrl) = cycles.flatMap (cycleActions []) :=
    List.flatMap_congr fun calls hcalls => cycleActions_incomplete (hcycles calls hcalls)
  have hruns : ∀ url, ∃ l', reloaderLoop self lib url cycles s l =
      some ((self.reloadMachine lib).exec s (cycles.flatMap (cycleActions url)), l') := by
    intro url
    have hobeys : Obeys ∅ ∅ 1 (reloaderLoop self lib url cycles s) fun result T' => T' = ∅ ∧
        result = (self.reloadMachine lib).exec s (cycles.flatMap (cycleActions url)) :=
      reloaderLoop_obeys cycles hs (by simp)
    rcases hobeys.exists_run (Finset.empty_subset l.live) with ⟨result, l', hrun, rfl, -⟩
    exact ⟨l', hrun⟩
  rcases hruns apiUrl with ⟨l', hwith⟩
  rcases hruns [] with ⟨l'', hwithout⟩
  exact ⟨_, l', l'', hwith, hsame ▸ hwithout⟩

end ApiFetch

end FrameProcessor

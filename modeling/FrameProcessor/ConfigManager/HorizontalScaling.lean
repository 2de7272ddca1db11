import FrameProcessor.ConfigManager.Parse
import FrameProcessor.Foundations.Residues

/-!
# components/config_manager - Horizontal scaling

Several instances read the same file and each keeps the entries it owns.  Together
they should load what one unfiltered instance loads, every entry exactly once.
Ownership compares remainders that truncate towards zero, so the residue of a negative
id that the instance count does not divide is negative and no slot has it.

Main results:

- Theorem `ConfigManager.loadedStreams_filter`: without whitelist and cap an instance
  loads the entries it owns, in file order.
- Theorem `ConfigManager.instances_partition_iff`: the instances partition the entries
  exactly when no entry has a negative id that the instance count does not divide.
-/

namespace FrameProcessor

namespace ConfigManager

/-! ## What one instance loads -/

/-- A deployment without whitelist and without stream cap. -/
structure Unrestricted (manager : ConfigManager) : Prop where
  whitelist : manager.hasStreamWhitelist = false
  maxStreams : manager.maxStreams.toInt ≤ 0

/-- The entries of a file that can be loaded at all, in file order. -/
def loadableStreams (lib : Simdjson) (file : Option Bytes) : List StreamConfig :=
  match lib.load file with
  | .error _ => []
  | .ok doc =>
    match doc.atKey "streams" >>= Json.getArray with
    | .error _ => []
    | .ok streamsArr => streamsArr.filterMap entryConfig

/-- Without whitelist and cap an instance loads the loadable entries it owns. -/
theorem loadedStreams_filter {self : ConfigManager} (h : self.Unrestricted) (lib : Simdjson)
    (file : Option Bytes) :
    self.loadedStreams lib file =
      (loadableStreams lib file).filter fun cfg => self.ownsStream cfg.id := by
  have hcap : self.cap = none := by
    have hmax := h.maxStreams
    simp only [cap]
    rw [if_neg (by omega)]
  have haccepts : self.accepts = fun cfg => self.ownsStream cfg.id := by
    funext cfg
    simp [accepts, isStreamWhitelisted, h.whitelist]
  unfold loadedStreams parseConfigJson loadableStreams
  cases lib.load file with
  | error code => rfl
  | ok doc =>
      cases harr : doc.atKey "streams" >>= Json.getArray with
      | error code => simp [harr]
      | ok streamsArr =>
          simp only [harr]
          rw [loadStreams_eq, hcap]
          rw [List.filter_filterMap]
          refine List.filterMap_congr fun e _ => ?_
          simp [eligible, haccepts]

/-! ## Several instances -/

/-- The instance of a deployment with `total` instances whose slot is `slot`. -/
def instanceAt (self : ConfigManager) (total slot : Int32) : ConfigManager :=
  { self with totalInstances := total, instanceSlot := slot }

/-- The instances load the entries of a single instance, each entry in exactly one of
them, in the same relative order, and nothing else. -/
def Partitions {n : Nat} (parts : Fin n → List StreamConfig) (single : List StreamConfig) : Prop :=
  ∃ owner : StreamConfig → Fin n, ∀ k, parts k = single.filter fun cfg => owner cfg = k

theorem Unrestricted.instanceAt {self : ConfigManager} (h : self.Unrestricted)
    (total slot : Int32) : (self.instanceAt total slot).Unrestricted :=
  ⟨h.whitelist, h.maxStreams⟩

/-- A single instance loads every loadable entry. -/
theorem loadedStreams_single {self : ConfigManager} (h : self.Unrestricted) (slot : Int32)
    (lib : Simdjson) (file : Option Bytes) :
    (self.instanceAt 1 slot).loadedStreams lib file = loadableStreams lib file := by
  rw [loadedStreams_filter (h.instanceAt 1 slot)]
  refine List.filter_eq_self.mpr fun cfg _ => ?_
  simp [ownsStream, ConfigManager.instanceAt]

/-- The slot of the `k`-th instance when slots are counted from `base`. -/
def slotAt (base k : Nat) : Int32 :=
  Int32.ofNat (base + k)

theorem slotAt_toInt {total : Int32} {base k : Nat} (hbase : base ≤ 1)
    (hk : k < total.toInt.toNat) : (slotAt base k).toInt = ((base + k : Nat) : Int) := by
  have hmax := Int32.toInt_lt total
  rw [slotAt, Int32.toInt_ofNat_of_lt]
  omega

/-- What the instances of a deployment load, by position. -/
def deployment (self : ConfigManager) (total : Int32) (base : Nat) (lib : Simdjson)
    (file : Option Bytes) (k : Fin total.toInt.toNat) : List StreamConfig :=
  (self.instanceAt total (slotAt base k)).loadedStreams lib file

/-- Ownership among at least two instances, by residue position. -/
theorem ownsStream_instanceAt {self : ConfigManager} {total : Int32} {base : Nat}
    (hbase : base ≤ 1) (htotal : 1 < total.toInt) (k : Fin total.toInt.toNat) (id : Int64) :
    (self.instanceAt total (slotAt base k)).ownsStream id = true ↔
      (0 ≤ id.toInt ∨ total.toInt ∣ id.toInt) ∧
        Residue.position total.toInt.toNat base (by omega) id.toInt = k := by
  have hslot := slotAt_toInt hbase k.isLt
  have hresidue := Residue.tmod_eq_tmod_iff base (by omega) id.toInt k
  rw [Int.toNat_of_nonneg (by omega)] at hresidue
  unfold ownsStream ConfigManager.instanceAt
  rw [if_neg (by simpa using htotal), beq_iff_eq, hslot]
  exact hresidue

/-- With slots counted from 0 or from 1, the instances partition what a single instance
loads exactly when every loaded id is non-negative or divisible by the instance count. -/
theorem instances_partition_iff {self : ConfigManager} (h : self.Unrestricted) {total : Int32}
    (htotal : 1 ≤ total.toInt) {base : Nat} (hbase : base ≤ 1) (slot : Int32) (lib : Simdjson)
    (file : Option Bytes) :
    Partitions (self.deployment total base lib file)
        ((self.instanceAt 1 slot).loadedStreams lib file) ↔
      ∀ cfg ∈ (self.instanceAt 1 slot).loadedStreams lib file,
        0 ≤ cfg.id.toInt ∨ total.toInt ∣ cfg.id.toInt := by
  rw [loadedStreams_single h slot]
  have hpart : ∀ k : Fin total.toInt.toNat,
      self.deployment total base lib file k =
        (loadableStreams lib file).filter fun cfg =>
          (self.instanceAt total (slotAt base k)).ownsStream cfg.id :=
    fun k => loadedStreams_filter (h.instanceAt total _) lib file
  by_cases hone : total.toInt = 1
  · refine iff_of_true ?_ fun cfg _ => Or.inr (hone ▸ one_dvd _)
    refine ⟨fun _ => ⟨0, by omega⟩, fun k => ?_⟩
    have hk : k = ⟨0, by omega⟩ := by
      apply Fin.ext
      have hlt := k.isLt
      omega
    rw [hpart k]
    refine List.filter_congr fun cfg _ => ?_
    simp [ownsStream, ConfigManager.instanceAt, hone, hk]
  · have htwo : 1 < total.toInt := by omega
    constructor
    · rintro ⟨owner, howner⟩ cfg hcfg
      have hmem : cfg ∈ (loadableStreams lib file).filter fun c => owner c = owner cfg :=
        List.mem_filter.mpr ⟨hcfg, by simp⟩
      rw [← howner, hpart] at hmem
      have howns := (List.mem_filter.mp hmem).2
      exact ((ownsStream_instanceAt hbase htwo _ _).mp howns).1
    · intro hids
      refine ⟨fun cfg => Residue.position total.toInt.toNat base (by omega) cfg.id.toInt,
        fun k => ?_⟩
      rw [hpart k]
      refine List.filter_congr fun cfg hcfg => ?_
      rw [Bool.eq_iff_iff, ownsStream_instanceAt hbase htwo]
      simp [hids cfg hcfg]

/-- A file with the two entries 1 and 2. -/
def twoStreamsText : Bytes :=
  Bytes.ofString ("\x7b\"streams\":[\x7b\"id\":1,\"url\":\"a\"\x7d," ++
    "\x7b\"id\":2,\"url\":\"b\"\x7d]\x7d")

/-- A file whose only entry has the id -1. -/
def negativeIdText : Bytes :=
  Bytes.ofString "\x7b\"streams\":[\x7b\"id\":-1,\"url\":\"a\"\x7d]\x7d"

/-- simdjson on the two files. -/
def streamsLibrary : Simdjson where
  parse text :=
    if text = twoStreamsText then
      .ok (.object [("streams", .array
        [.object [("id", .int64 1), ("url", .string "a")],
          .object [("id", .int64 2), ("url", .string "b")]])])
    else if text = negativeIdText then
      .ok (.object [("streams", .array [.object [("id", .int64 (-1)), ("url", .string "a")]])])
    else .error .tapeError
  minify _ := []

/-- Two instances, slots 1 and 2 as Docker Swarm counts them, share two streams. -/
theorem instances_partition_two :
    Partitions (({} : ConfigManager).deployment 2 1 streamsLibrary (some twoStreamsText))
      ((({} : ConfigManager).instanceAt 1 0).loadedStreams streamsLibrary
        (some twoStreamsText)) := by
  refine (instances_partition_iff ⟨rfl, by decide⟩ (by decide) le_rfl 0 _ _).mpr ?_
  have hids : ((({} : ConfigManager).instanceAt 1 0).loadedStreams streamsLibrary
      (some twoStreamsText)).map StreamConfig.id = [1, 2] := by decide
  intro cfg hcfg
  have hid : cfg.id ∈ ([1, 2] : List Int64) := hids ▸ List.mem_map_of_mem hcfg
  simp only [List.mem_cons, List.not_mem_nil, or_false] at hid
  rcases hid with hid | hid <;> rw [hid] <;> decide

/-- The stream with id -1 is loaded by a single instance and by neither of two. -/
theorem instances_lose_negative_id :
    ¬ Partitions (({} : ConfigManager).deployment 2 0 streamsLibrary (some negativeIdText))
      ((({} : ConfigManager).instanceAt 1 0).loadedStreams streamsLibrary
        (some negativeIdText)) := by
  rintro ⟨owner, howner⟩
  have hempty : ∀ k, ({} : ConfigManager).deployment 2 0 streamsLibrary
      (some negativeIdText) k = [] := by decide
  have hsingle : (({} : ConfigManager).instanceAt 1 0).loadedStreams streamsLibrary
      (some negativeIdText) ≠ [] := by decide
  rcases List.exists_mem_of_ne_nil _ hsingle with ⟨cfg, hcfg⟩
  have hmem := howner (owner cfg) ▸ hempty (owner cfg)
  exact List.filter_eq_nil_iff.mp hmem cfg hcfg (by simp)

end ConfigManager

end FrameProcessor

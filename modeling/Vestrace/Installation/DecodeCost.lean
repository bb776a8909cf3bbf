import Vestrace.Installation.WitnessCodec
import Vestrace.Lib.Metered

/-!
# What the decoders ask of the machine

The decoders once more, with their allocations and loops on record: `Vec::with_capacity`, the copy
of the lineage, the buffer a checkpoint is hashed from, and every loop.

The archive's decoder reads the number of a set's checkpoints and reserves room for that
many before it reads the first. Everything else it asks for is paid for by bytes it has
read.
-/

namespace Vestrace.Installation

open Lib CanonicalDecoder Decoder List Nat Metered WitnessStateV1 SetRecord

variable {c : Nat} {records : List SetRecord}

/-- `size_of::<WalArchiveCheckpoint>()`: 165 bytes of fields, aligned to eight. -/
def checkpointSize : Nat := 168

/-- `isize::MAX`, in bytes the most a `Vec` may hold. -/
def isizeMax : Nat := 2 ^ 63 - 1

namespace Costed

variable [Crypto]

/-! ## The archive -/

omit [Crypto] in
def checkpoints (setId : BackupSetId) : Metered BackupArchiveError (List WalArchiveCheckpoint) := do
  let count ← .lift ArchiveDecoder.usize
  .withCapacity checkpointSize isizeMax count
  let read ← .times count (fun read => .lift (ArchiveDecoder.checkpointRound setId read)) (0, [])
  return read.2

/-- The loops over the kinds of the checkpoints, and the buffer the last one's digest is
computed from. -/
def checkChain (head : ArchiveHead) (checkpoints : List WalArchiveCheckpoint) :
    Metered BackupArchiveError Unit := do
  let isBase := fun checkpoint : WalArchiveCheckpoint => checkpoint.object.kind == .baseChunk
  match checkpoints.head? with
  | none => pure ()
  | some first =>
    .lift (check (refuse (isBase first = true ∧ first.object.ordinal ≠ 1) .malformed))
    .record (.rounds (anyRounds isBase (checkpoints.drop 1)))
    .lift (check (refuse ((checkpoints.drop 1).any isBase = true) .malformed))
    .recordIf (isBase first = false) (.rounds (anyRounds isBase checkpoints))
    .lift (check
      (refuse (isBase first = false ∧ checkpoints.any isBase = true) .malformed))
  match checkpoints.getLast? with
  | none => pure ()
  | some last =>
    .recordIf (head.checkpointOrdinal = last.object.ordinal)
      (.allocate last.canonicalBytes.length)
    .lift (check (refuse (head ≠ last.head) .malformed))
  .lift (check (refuse (checkpoints = [] ∧ head.checkpointOrdinal ≠ 0) .malformed))

omit [Crypto] in
def holds : Metered BackupArchiveError (SortedMap RestoreHoldId RestoreHold) := do
  let count ← .lift ArchiveDecoder.usize
  .times count (fun read => .lift (ArchiveDecoder.holdRound read)) .empty

def setRound (read : SortedMap BackupSetId BackupSetState) :
    Metered BackupArchiveError (SortedMap BackupSetId BackupSetState) := do
  let header ← .lift setHeader
  let checkpoints ← checkpoints header.identity.setId
  checkChain header.head checkpoints
  .lift (check (checkPreparations header.lifecycle header.deletionPreparation
    header.keyErasurePreparation))
  let holds ← holds
  .lift (check (refuse ((read.get header.identity.setId).isSome = true) .malformed))
  return read.insert header.identity.setId
    { identity := header.identity, lifecycle := header.lifecycle,
      deletionRequested := header.deletionRequested,
      deletionPreparation := header.deletionPreparation,
      keyErasurePreparation := header.keyErasurePreparation, head := header.head,
      checkpoints, holds }

def decodeSets : Metered BackupArchiveError BackupArchiveStateV1 := do
  let version ← .lift ArchiveDecoder.u8
  .lift (check (refuse (version ≠ archiveStateVersion) .malformed))
  let count ← .lift ArchiveDecoder.usize
  let sets ← .times count setRound .empty
  .lift (finish .malformed)
  return ⟨sets⟩

def backupArchiveState : Metered BackupArchiveError BackupArchiveStateV1 := fun bytes =>
  if bytes = [] then ⟨[], .ok (.empty, [])⟩ else decodeSets bytes

/-! ## The witnessed state -/

def archiveSlots (archiveSlot retiredSlot : Bytes) :
    Metered InstallationSafetyError BackupArchiveStateV1 :=
  if archiveSlot = [] ∧ retiredSlot = [] then pure .empty
  else if retiredSlot = [] then .nested backupArchiveState (fun _ => .malformed) archiveSlot
  else .lift (check (.error .malformed))

omit [Crypto] in
theorem generationsOf_ne_nil {lineage : Bytes}
    (h : ¬ (lineage.length < 16 ∨ lineage.length % 16 ≠ 0)) :
    generationsOf (lineage.length / 16) lineage ≠ [] := by
  obtain ⟨n, hn⟩ : ∃ n, lineage.length / 16 = n + 1 :=
    exists_eq_add_one.mpr (div_pos (not_lt.mp fun hlt => h (.inl hlt)) (by decide))
  rw [hn]
  exact cons_ne_nil _ _

def witnessState : Metered InstallationSafetyError WitnessStateV1 := do
  let lineage ← .lift (fieldBytes .malformed)
  .record (.allocate lineage.length)
  let archiveSlot ← .lift (fieldBytes .malformed)
  let retiredSlot ← .lift (fieldBytes .malformed)
  let targetActivationPlan ← .lift (optionalValue TargetActivationPlan.fromCanonicalBytes)
  let restoreAttemptProgress ← .lift (optionalValue RestoreAttemptProgress.fromCanonicalBytes)
  let targetActivationStarted ← .lift activationMarker
  .lift (finish .malformed)
  if h : lineage.length < 16 ∨ lineage.length % 16 ≠ 0 then
    .lift (check (.error .malformed))
  else
    let backupArchiveState ← archiveSlots archiveSlot retiredSlot
    return {
      generationLineageState := generationsOf (lineage.length / 16) lineage
      backupArchiveState, targetActivationPlan, restoreAttemptProgress, targetActivationStarted
      lineage_ne := generationsOf_ne_nil h }

/-! ## Those that borrow from their input -/

/-- A decoder that neither loops nor allocates. -/
def borrowing {ε α : Type} (fromBytes : Bytes → Except ε α) : Metered ε α :=
  .lift fun bytes => (fromBytes bytes).map fun a => (a, [])

def safetyBootstrapBinding : Metered InstallationSafetyError SafetyBootstrapBinding :=
  borrowing SafetyBootstrapBinding.fromCanonicalBytes

def sourceFreezePoint : Metered RestoreCutoverError SourceFreezePoint :=
  borrowing SourceFreezePoint.fromCanonicalBytes

def restoreTerminalReceipt : Metered RestoreCutoverError RestoreTerminalReceipt :=
  borrowing RestoreTerminalReceipt.fromCanonicalBytes

def restoreAttemptProgress : Metered RestoreCutoverError RestoreAttemptProgress :=
  borrowing RestoreAttemptProgress.fromCanonicalBytes

def targetActivationPlan : Metered RestoreCutoverError TargetActivationPlan :=
  borrowing TargetActivationPlan.fromCanonicalBytes

/-! ## The decoders without the meter -/

open Metered

omit [Crypto] in
theorem erases_checkpoints (setId : BackupSetId) :
    Erases (checkpoints setId) (ArchiveDecoder.checkpoints setId) :=
  .bind (.lift _) fun count => .withCapacity_bind _ _ count <|
    .bind (.times (fun _ => .lift _) count _) fun _ => .pure _

theorem erases_checkChain (head : ArchiveHead) (checkpoints : List WalArchiveCheckpoint) :
    Erases (checkChain head checkpoints)
      (check (Installation.checkChain head checkpoints)) := by
  unfold checkChain Installation.checkChain
  cases checkpoints with
  | nil => exact .lift _
  | cons c cs =>
    rw [head?_cons, getLast?_cons]
    exact .check_bind fun _ => .record_bind _ <| .check_bind fun _ => .recordIf_bind _ <|
      .check_bind fun _ => .recordIf_bind _ <| .check_bind fun _ => .lift _

omit [Crypto] in
theorem erases_holds : Erases holds ArchiveDecoder.holds :=
  .bind (.lift _) fun count => .times (fun _ => .lift _) count _

theorem erases_setRound (read : SortedMap BackupSetId BackupSetState) :
    Erases (setRound read) (Installation.setRound read) := by
  rw [setRound_eq]
  exact .bind (.lift _) fun _ => .bind (erases_checkpoints _) fun _ =>
    .bind (erases_checkChain _ _) fun _ => .bind (.lift _) fun _ =>
    .bind erases_holds fun _ => .bind (.lift _) fun _ => .pure _

theorem erases_decodeSets : Erases decodeSets Installation.decodeSets :=
  .bind (.lift _) fun _ => .bind (.lift _) fun _ => .bind (.lift _) fun count =>
    .bind (.times erases_setRound count _) fun _ => .bind (.lift _) fun _ => .pure _

theorem erases_backupArchiveState : Erases backupArchiveState fun bytes =>
    if bytes = [] then .ok (.empty, []) else Installation.decodeSets bytes := by
  intro s
  by_cases hnil : s = []
  · simp only [backupArchiveState, if_pos hnil]
    exact .inr rfl
  · simp only [backupArchiveState, if_neg hnil]
    exact erases_decodeSets s

theorem erases_archiveSlots (archiveSlot retiredSlot : Bytes) :
    Erases (archiveSlots archiveSlot retiredSlot)
      (check (Installation.archiveSlots archiveSlot retiredSlot)) := by
  unfold archiveSlots Installation.archiveSlots
  by_cases hboth : archiveSlot = [] ∧ retiredSlot = []
  · rw [if_pos hboth, if_pos hboth]
    exact .pure _
  · by_cases hretired : retiredSlot = []
    · have harchive : archiveSlot ≠ [] := fun h => hboth ⟨h, hretired⟩
      rw [if_neg hboth, if_neg hboth, if_pos hretired, if_pos hretired,
        BackupArchiveStateV1.fromCanonicalBytes, if_neg harchive]
      have hnested := Erases.nested erases_backupArchiveState
        (fun _ => InstallationSafetyError.malformed) archiveSlot
      rwa [if_neg harchive] at hnested
    · rw [if_neg hboth, if_neg hboth, if_neg hretired, if_neg hretired]
      exact .lift _

theorem erases_witnessState : Erases witnessState WitnessStateV1.decode := by
  refine .bind (.lift _) fun lineage => .record_bind _ <| .bind (.lift _) fun archiveSlot =>
    .bind (.lift _) fun retiredSlot => .bind (.lift _) fun _ => .bind (.lift _) fun _ =>
    .bind (.lift _) fun _ => .bind (.lift _) fun _ => ?_
  split
  · exact .lift _
  · exact .bind (erases_archiveSlots archiveSlot retiredSlot) fun _ => .pure _

/-! ## What they ask for -/

variable {s : Bytes} {event : Event} {n : Nat}

def RoomFor (c : Nat) (event : Event) : Prop :=
  event = .allocate c ∨ event = .panic ∧ isizeMax < checkpointSize * c

omit [Crypto] in
theorem does_checkpoints {setId : BackupSetId} (h : (checkpoints setId s).Does event) :
    ∃ c rest, (c < 256 ^ 8 ∧ s = beBytes 8 c ++ rest) ∧
      (RoomFor c event ∨ event.Within s.length) := by
  simp only [checkpoints, does_bind, does_lift, false_or, lift_eq_ok, ArchiveDecoder.usize_eq_ok,
    does_withCapacity, does_pure, and_false, exists_false, or_false] at h
  obtain ⟨c, rest, hs, hask | ⟨_, t, hroom, hloop⟩⟩ := h
  · exact ⟨c, rest, hs, .inl hask⟩
  · obtain ⟨-, rfl⟩ := withCapacity_eq_ok.mp hroom
    have hpos : ∀ c : WalArchiveCheckpoint, 0 < (field c.canonicalBytes).length := fun c => by
      simp [field]
    have hwithin := ReadsItem.does_times_lift ArchiveDecoder.checkpointRound_reads hpos hloop
    refine ⟨c, rest, hs, .inr (hwithin.mono ?_)⟩
    rw [hs.2, length_append]
    exact le_add_left _ _

omit [Crypto] in
theorem checkpoints_asks (setId : BackupSetId) (hc : c < 256 ^ 8) (rest : Bytes)
    (h : RoomFor c event) : (checkpoints setId (beBytes 8 c ++ rest)).Does event := by
  have hcount : (lift ArchiveDecoder.usize (beBytes 8 c ++ rest)).outcome = .ok (c, rest) :=
    lift_eq_ok.mpr (ArchiveDecoder.usize_eq_ok.mpr ⟨hc, rfl⟩)
  exact does_bind.mpr (.inr ⟨c, rest, hcount, does_bind.mpr (.inl (does_withCapacity.mpr h))⟩)

theorem does_checkChain {head : ArchiveHead} {cs : List WalArchiveCheckpoint}
    (h : (checkChain head cs s).Does event) :
    event.Within (cs.flatMap fun c => field c.canonicalBytes).length := by
  cases cs with
  | nil =>
    simp only [checkChain, head?_nil, getLast?_nil, does_lift] at h
  | cons c cs =>
    have hrounds := length_le_length_flatMap (fun c : WalArchiveCheckpoint =>
      show 0 < (field c.canonicalBytes).length by simp [field]) (c :: cs)
    have hbuffer : 207 ≤ ((c :: cs).flatMap fun c => field c.canonicalBytes).length := by
      simp only [flatMap_cons, length_append, field, c.length_canonicalBytes]
      omega
    simp only [checkChain, head?_cons, getLast?_cons, does_bind, does_lift, false_or,
      lift_eq_ok, and_false, exists_false, or_false] at h
    obtain ⟨_, _, -, h | ⟨_, _, -, _, _, -, h | ⟨_, _, -, _, _, -, h⟩⟩⟩ := h
    · obtain rfl := eq_of_does_record h
      refine le_trans (anyRounds_le _ _) ?_
      rw [length_drop]
      omega
    · obtain rfl := eq_of_does_recordIf h
      exact le_trans (anyRounds_le _ _) (le_succ_of_le hrounds)
    · obtain rfl := eq_of_does_recordIf h
      show length _ ≤ _
      rw [WalArchiveCheckpoint.length_canonicalBytes]
      exact hbuffer

omit [Crypto] in
theorem does_holds (h : (holds s).Does event) : event.Within s.length := by
  simp only [holds, does_bind, does_lift, false_or, lift_eq_ok, ArchiveDecoder.usize_eq_ok] at h
  obtain ⟨c, rest, ⟨-, rfl⟩, hloop⟩ := h
  have hwithin := ReadsItem.does_times_lift ArchiveDecoder.holdRound_reads
    RestoreHold.length_encode_pos hloop
  refine hwithin.mono ?_
  rw [length_append]
  exact le_add_left _ _

theorem does_setRound {read : SortedMap BackupSetId BackupSetState}
    (h : (setRound read s).Does event) :
    (∃ (header : SetHeader) (c : Nat) (rest : Bytes),
      (c < 256 ^ 8 ∧ s = header.encode ++ (beBytes 8 c ++ rest)) ∧ RoomFor c event) ∨
      event.Within s.length := by
  simp only [setRound, does_bind, does_lift, false_or, lift_eq_ok, setHeader_eq_ok,
    check_eq_ok, does_pure, and_false, exists_false, or_false] at h
  obtain ⟨header, r, rfl, h⟩ := h
  rw [length_append]
  rcases h with h | ⟨cs, r₁, hread, h | ⟨_, r₂, hchain, _, _, ⟨-, rfl⟩, h⟩⟩
  · obtain ⟨c, rest, ⟨hc, rfl⟩, hask | hwithin⟩ := does_checkpoints h
    · exact .inl ⟨header, c, rest, ⟨hc, rfl⟩, hask⟩
    · exact .inr (hwithin.mono (le_add_left _ _))
  · obtain ⟨-, rfl⟩ :=
      ArchiveDecoder.checkpoints_eq_ok.mp ((erases_checkpoints _).eq_ok_iff.mp hread).1
    refine .inr ((does_checkChain h).mono ?_)
    simp only [length_append]
    omega
  · obtain ⟨-, rfl⟩ :=
      ArchiveDecoder.checkpoints_eq_ok.mp ((erases_checkpoints _).eq_ok_iff.mp hread).1
    obtain ⟨-, rfl⟩ := check_eq_ok.mp ((erases_checkChain _ _).eq_ok_iff.mp hchain).1
    refine .inr ((does_holds h).mono ?_)
    simp only [length_append]
    omega

theorem setRound_asks (read : SortedMap BackupSetId BackupSetState) (header : SetHeader)
    (hc : c < 256 ^ 8) (rest : Bytes) (h : RoomFor c event) :
    (setRound read (header.encode ++ (beBytes 8 c ++ rest))).Does event := by
  have hheader : (lift setHeader (header.encode ++ (beBytes 8 c ++ rest))).outcome =
      .ok (header, beBytes 8 c ++ rest) := lift_eq_ok.mpr (setHeader_eq_ok.mpr rfl)
  rw [setRound, does_bind]
  refine .inr ⟨header, _, hheader, ?_⟩
  rw [does_bind]
  exact .inl (checkpoints_asks header.identity.setId hc rest h)

theorem setRound_reads :
    ReadsItem setRound
      (fun read record => (record.Valid ∧ checkpointSize * record.checkpoints.length ≤ isizeMax) ∧
        read.get record.state.identity.setId = none)
      (fun read record => read.insert record.state.identity.setId record.state)
      SetRecord.encode := by
  intro read next s t
  rw [(erases_setRound read).eq_ok_iff, Installation.setRound_reads read next s t]
  have hsplit : ∀ record : SetRecord, record.encode ++ t = record.toSetHeader.encode ++
      (beBytes 8 record.checkpoints.length ++ (record.checkpoints.flatMap
        (fun c => field c.canonicalBytes) ++ (beBytes 8 record.holds.length ++
          (record.holds.flatMap RestoreHold.encode ++ t)))) := fun record => by
    simp only [encode, append_assoc]
  constructor
  · intro h
    obtain ⟨⟨record, ⟨hvalid, hnew⟩, hput, rfl⟩, hpanic⟩ := h
    rw [hsplit] at hpanic
    have hroom : checkpointSize * record.checkpoints.length ≤ isizeMax := not_lt.mp fun hroom =>
      hpanic (setRound_asks read _ hvalid.checkpointCount _ (.inr ⟨rfl, hroom⟩))
    exact ⟨record, ⟨⟨hvalid, hroom⟩, hnew⟩, hput, rfl⟩
  · intro h
    obtain ⟨record, ⟨⟨hvalid, hroom⟩, hnew⟩, hput, rfl⟩ := h
    refine ⟨⟨record, ⟨hvalid, hnew⟩, hput, rfl⟩, fun hpanic => ?_⟩
    -- a panic would be for a count that is not the record's own
    obtain ⟨header, c, rest, ⟨hc, hs⟩, hask | ⟨-, hlt⟩⟩ | hwithin := does_setRound hpanic
    · cases hask
    · rw [hsplit] at hs
      obtain ⟨-, hrest⟩ := SetHeader.encode_append_inj hs
      obtain ⟨hcount, -⟩ := append_inj hrest (by simp)
      rw [beBytes_injOn hvalid.checkpointCount hc hcount] at hroom
      exact absurd hlt (not_lt.mpr hroom)
    · exact hwithin

/-! ## The numbers an archive slot announces -/

structure AnnouncedBehind (records : List SetRecord) (slot : Bytes) (c : Nat) : Prop where
  valid : ∀ record ∈ records, record.Valid
  ids : (records.map fun record => record.identity.setId).Nodup
  count_lt : c < 256 ^ 8
  slot_eq : ∃ (n : Nat) (header : SetHeader) (rest : Bytes),
    (n < 256 ^ 8 ∧ records.length < n) ∧ slot = archiveStateVersion :: (beBytes 8 n ++
      (records.flatMap SetRecord.encode ++ (header.encode ++ (beBytes 8 c ++ rest))))

/-- The archive's decoder comes to read `c` as a number of checkpoints, or would, had it
the room for the ones before. -/
def Announces (slot : Bytes) (c : Nat) : Prop := ∃ records, AnnouncedBehind records slot c

theorem does_decodeSets (h : (decodeSets s).Does event) :
    (∃ c, Announces s c ∧ RoomFor c event) ∨ event.Within s.length := by
  simp only [decodeSets, does_bind, does_lift, false_or, lift_eq_ok, ArchiveDecoder.u8_eq_ok,
    check_eq_ok, refuse_eq_ok, not_not, ArchiveDecoder.usize_eq_ok, does_pure, and_false,
    exists_false, or_false] at h
  obtain ⟨_, _, rfl, ⟨⟩, _, ⟨rfl, rfl⟩, n, r, ⟨hn, rfl⟩, h⟩ := h
  have hlen : r.length ≤ (archiveStateVersion :: (beBytes 8 n ++ r)).length := by
    rw [length_cons, length_append]
    omega
  have hpos : ∀ record : SetRecord, 0 < record.encode.length := fun record =>
    lt_of_lt_of_le (succ_pos _) record.length_encode_ge
  rcases setRound_reads.does_times.mp h with rfl | ⟨records, t, hlt, hadmits, rfl, hround⟩
  · have hwithin : (Event.rounds (runRounds n setRound .empty r).1).Within r.length :=
      setRound_reads.rounds_le hpos n .empty r
    exact .inr (hwithin.mono hlen)
  · obtain ⟨hvalid, hids, -⟩ := (admits_insert _ (fun state => state.identity.setId)
      state).mp hadmits
    rcases does_setRound hround with ⟨header, c, rest, ⟨hc, rfl⟩, hask⟩ | hwithin
    · exact .inl ⟨c, ⟨records, fun record hmem => (hvalid record hmem).1, hids, hc, n, header, rest,
        ⟨hn, hlt⟩, rfl⟩, hask⟩
    · refine .inr (hwithin.mono (le_trans ?_ hlen))
      rw [length_append]
      exact le_add_left _ _

theorem decodeSets_asks (h : AnnouncedBehind records s c)
    (hroom : ∀ record ∈ records, checkpointSize * record.checkpoints.length ≤ isizeMax)
    (hask : RoomFor c event) : (decodeSets s).Does event := by
  obtain ⟨n, header, rest, ⟨hn, hlt⟩, rfl⟩ := h.slot_eq
  have hadmits := (admits_insert
    (fun record => record.Valid ∧ checkpointSize * record.checkpoints.length ≤ isizeMax)
    (fun state => state.identity.setId) state).mpr
    ⟨fun record hmem => ⟨h.valid record hmem, hroom record hmem⟩, h.ids,
      fun _ _ => SortedMap.get_empty _⟩
  -- what the round behind the records does, the decoder does
  have hround := setRound_asks (records.foldl (fun read record =>
    read.insert record.state.identity.setId record.state) .empty) header h.count_lt rest hask
  have hloop := setRound_reads.does_times.mpr (.inr ⟨records, _, hlt, hadmits, rfl, hround⟩)
  simp only [decodeSets, does_bind, does_lift, false_or, lift_eq_ok, ArchiveDecoder.u8_eq_ok,
    check_eq_ok, refuse_eq_ok, not_not, ArchiveDecoder.usize_eq_ok]
  exact ⟨_, _, rfl, (), _, ⟨rfl, rfl⟩, n, _, ⟨hn, rfl⟩, .inl hloop⟩

theorem AnnouncedBehind.before
    (h : AnnouncedBehind records s c) {record : SetRecord} (hmem : record ∈ records) :
    ∃ earlier, earlier.length < records.length ∧
      AnnouncedBehind earlier s record.checkpoints.length := by
  obtain ⟨earlier, later, rfl⟩ := append_of_mem hmem
  obtain ⟨n, header, rest, ⟨hn, hlt⟩, rfl⟩ := h.slot_eq
  have hearlier : earlier.length < (earlier ++ record :: later).length := by
    rw [length_append, length_cons]
    omega
  refine ⟨earlier, hearlier, fun r hr => h.valid r (mem_append_left _ hr), ?_,
    (h.valid record hmem).checkpointCount, n, record.toSetHeader,
    record.checkpoints.flatMap (fun c => field c.canonicalBytes) ++
      (beBytes 8 record.holds.length ++ (record.holds.flatMap RestoreHold.encode ++
        (later.flatMap encode ++ (header.encode ++ (beBytes 8 c ++ rest))))),
    ⟨hn, hearlier.trans hlt⟩, ?_⟩
  · have hids := h.ids
    rw [map_append] at hids
    exact hids.of_append_left
  · simp only [encode, flatMap_append, flatMap_cons, append_assoc]

theorem decodeSets_within_iff (hn : s.length ≤ n) : (decodeSets s).Bounded n ↔
      ∀ c, Announces s c → c ≤ n ∧ checkpointSize * c ≤ isizeMax := by
  constructor
  · intro h c hc
    obtain ⟨records, hc⟩ := hc
    -- by the number of records before: none of them can have asked for too much
    induction hlen : records.length using Nat.strong_induction_on generalizing records c with
    | _ k ih =>
      have hroom : ∀ record ∈ records,
          checkpointSize * record.checkpoints.length ≤ isizeMax := by
        intro record hmem
        obtain ⟨earlier, hlt, hearlier⟩ := hc.before hmem
        exact (ih earlier.length (hlen ▸ hlt) _ earlier hearlier rfl).2
      exact ⟨h _ (decodeSets_asks hc hroom (.inl rfl)),
        not_lt.mp fun hlarge => h _ (decodeSets_asks hc hroom (.inr ⟨rfl, hlarge⟩))⟩
  · intro h event hevent
    rcases does_decodeSets hevent with ⟨c, hc, rfl | ⟨rfl, hlarge⟩⟩ | hwithin
    · exact (h c hc).1
    · exact absurd hlarge (not_lt.mpr (h c hc).2)
    · exact hwithin.mono hn

theorem backupArchiveState_within_iff (hn : s.length ≤ n) : (backupArchiveState s).Bounded n ↔
      ∀ c, Announces s c → c ≤ n ∧ checkpointSize * c ≤ isizeMax := by
  by_cases hnil : s = []
  · -- the empty slot announces nothing, and nothing is asked for it
    subst hnil
    constructor
    · intro _ c hc
      obtain ⟨_, hc⟩ := hc
      obtain ⟨_, _, _, _, hslot⟩ := hc.slot_eq
      cases hslot
    · intro _ event hevent
      rw [backupArchiveState, if_pos rfl] at hevent
      exact absurd hevent does_pure
  · rw [← decodeSets_within_iff hn, backupArchiveState, if_neg hnil]

/-! ## The numbers a state announces -/

def StateAnnounces (bytes : Bytes) (c : Nat) : Prop :=
  ∃ (state : WitnessStateV1) (slot : Bytes), (state.lineageBytes.length < 256 ^ 8 ∧
    slot.length < 256 ^ 8) ∧ bytes = state.bytesWith slot ∧ Announces slot c

theorem does_archiveSlots {archiveSlot retiredSlot : Bytes} :
    (archiveSlots archiveSlot retiredSlot s).Does event ↔
      retiredSlot = [] ∧ (backupArchiveState archiveSlot).Does event := by
  unfold archiveSlots
  by_cases hretired : retiredSlot = []
  · by_cases harchive : archiveSlot = []
    · rw [if_pos ⟨harchive, hretired⟩, backupArchiveState, if_pos harchive]
      exact iff_of_false does_pure fun h => does_pure h.2
    · rw [if_neg fun h => harchive h.1, if_pos hretired, does_nested, and_iff_right hretired]
  · rw [if_neg fun h => hretired h.2, if_neg hretired]
    exact iff_of_false does_lift fun h => hretired h.1

theorem does_witnessState (h : (witnessState s).Does event) :
    event.Within s.length ∨ ∃ (state : WitnessStateV1) (slot : Bytes),
      (state.lineageBytes.length < 256 ^ 8 ∧ slot.length < 256 ^ 8) ∧ s = state.bytesWith slot ∧
        (backupArchiveState slot).Does event := by
  simp only [witnessState, does_bind, does_lift, false_or, lift_eq_ok, fieldBytes_eq_ok,
    optionalPlan_eq_ok, optionalProgress_eq_ok, record_eq_ok, finish_eq_ok] at h
  obtain ⟨lineage, _, ⟨hlineage, rfl⟩, h | ⟨_, _, rfl, slot, _, ⟨hslot, rfl⟩, retired, _, ⟨-, rfl⟩,
    plan, _, rfl, progress, _, rfl, marker, _, hmarker, ⟨⟩, _, ⟨rfl, rfl⟩, h⟩⟩ := h
  · obtain rfl := eq_of_does_record h
    refine .inl ?_
    show lineage.length ≤ _
    rw [length_append, field, length_append]
    omega
  · obtain rfl := activationMarker_finish.mp hmarker
    split at h
    · exact absurd h does_lift
    · next hsixteen =>
      rw [does_bind, does_archiveSlots] at h
      obtain ⟨rfl, hslots⟩ | ⟨_, _, _, hpure⟩ := h
      swap
      · exact absurd hpure does_pure
      have hback : (generationsOf (lineage.length / 16) lineage).flatMap SafetyId.asBytes =
          lineage := flatMap_generationsOf (by omega)
      refine .inr ⟨⟨generationsOf (lineage.length / 16) lineage, .empty, plan, progress, marker,
        generationsOf_ne_nil hsixteen⟩, slot, ⟨?_, hslot⟩, ?_, hslots⟩
      · rw [lineageBytes, hback]
        exact hlineage
      · simp only [bytesWith, lineageBytes, hback, append_assoc]

theorem witnessState_asks {state : WitnessStateV1} {slot : Bytes}
    (hlineage : state.lineageBytes.length < 256 ^ 8) (hslot : slot.length < 256 ^ 8)
    (h : (backupArchiveState slot).Does event) :
    (witnessState (state.bytesWith slot)).Does event := by
  have hlen := state.length_lineageBytes
  have hpos := length_pos_iff.mpr state.lineage_ne
  have hsixteen : ¬ (state.lineageBytes.length < 16 ∨ state.lineageBytes.length % 16 ≠ 0) := by
    omega
  simp only [witnessState, does_bind, does_lift, false_or, lift_eq_ok, fieldBytes_eq_ok,
    optionalPlan_eq_ok, optionalProgress_eq_ok, record_eq_ok, finish_eq_ok]
  refine ⟨state.lineageBytes, _, ⟨hlineage, ?_⟩, .inr ⟨(), _, rfl, slot, _, ⟨hslot, rfl⟩, [], _,
    ⟨by decide, rfl⟩, state.targetActivationPlan, _, rfl, state.restoreAttemptProgress, _, rfl,
    state.targetActivationStarted, [], activationMarker_finish.mpr rfl, (), [], ⟨rfl, rfl⟩, ?_⟩⟩
  · simp only [bytesWith, append_assoc]
  · rw [dif_neg hsixteen, does_bind]
    exact .inl (does_archiveSlots.mpr ⟨rfl, h⟩)

theorem witnessState_within_iff (s : Bytes) :
    (witnessState s).Bounded s.length ↔
      ∀ c, StateAnnounces s c → c ≤ s.length ∧ checkpointSize * c ≤ isizeMax := by
  have hslotLen : ∀ (state : WitnessStateV1) (slot : Bytes),
      slot.length ≤ (state.bytesWith slot).length := fun state slot => by
    simp only [bytesWith, field, length_append]
    omega
  constructor
  · intro h c hc
    obtain ⟨state, slot, ⟨hlineage, hslot⟩, rfl, hannounces⟩ := hc
    exact (backupArchiveState_within_iff (hslotLen state slot)).mp
      (fun event hevent => h event (witnessState_asks hlineage hslot hevent)) c hannounces
  · intro h event hevent
    rcases does_witnessState hevent with hwithin | ⟨state, slot, hfits, rfl, hslot⟩
    · exact hwithin
    · exact (backupArchiveState_within_iff (hslotLen state slot)).mpr
        (fun c hc => h c ⟨state, slot, hfits, rfl, hc⟩) event hslot

end Costed

/-- **The decoders are bounded but for the numbers of checkpoints**: a run neither panics nor asks
for more than its input is worth exactly if every number the archive slot announces is covered by
the input and by a `Vec`. -/
theorem decoders_bounded_iff [Crypto] (b : Bytes) :
    ((Costed.backupArchiveState b).Bounded b.length ↔
      ∀ c, Costed.Announces b c → c ≤ b.length ∧ checkpointSize * c ≤ isizeMax) ∧
    ((Costed.witnessState b).Bounded b.length ↔
      ∀ c, Costed.StateAnnounces b c → c ≤ b.length ∧ checkpointSize * c ≤ isizeMax) ∧
    (Costed.safetyBootstrapBinding b).Bounded b.length ∧
    (Costed.sourceFreezePoint b).Bounded b.length ∧
    (Costed.restoreTerminalReceipt b).Bounded b.length ∧
    (Costed.restoreAttemptProgress b).Bounded b.length ∧
    (Costed.targetActivationPlan b).Bounded b.length :=
  ⟨Costed.backupArchiveState_within_iff le_rfl, Costed.witnessState_within_iff b,
    fun _ h => absurd h does_lift, fun _ h => absurd h does_lift,
    fun _ h => absurd h does_lift, fun _ h => absurd h does_lift,
    fun _ h => absurd h does_lift⟩

section

local instance decodeCostCrypto : Crypto := plainCrypto

def slotAnnouncing (c : Nat) : Bytes :=
  let header : SetHeader := ⟨⟨⟨1⟩, ⟨2⟩, ⟨3⟩⟩, .streaming, false, none, none, ⟨0, ⟨0⟩⟩⟩
  archiveStateVersion :: (beBytes 8 1 ++ (header.encode ++ (beBytes 8 c ++ [])))

theorem announcedBehind_slotAnnouncing (hc : c < 256 ^ 8) :
    Costed.AnnouncedBehind [] (slotAnnouncing c) c :=
  ⟨fun _ h => absurd h not_mem_nil, nodup_nil, hc, 1, _, [],
    ⟨by decide, one_pos⟩, rfl⟩

/-- 109 bytes that ask for the most checkpoints a word can announce: the decoder panics. -/
theorem slotAnnouncing_panics : (slotAnnouncing (2 ^ 64 - 1)).length = 109 ∧
    (Costed.backupArchiveState (slotAnnouncing (2 ^ 64 - 1))).Does (.allocate (2 ^ 64 - 1)) ∧
    (Costed.backupArchiveState (slotAnnouncing (2 ^ 64 - 1))).Does .panic := by
  have hannounced : Costed.AnnouncedBehind [] (slotAnnouncing (2 ^ 64 - 1)) (2 ^ 64 - 1) :=
    announcedBehind_slotAnnouncing (by decide)
  refine ⟨by decide, ?_, ?_⟩
  · exact Costed.decodeSets_asks hannounced (forall_mem_nil _) (.inl rfl)
  · exact Costed.decodeSets_asks hannounced (forall_mem_nil _) (.inr ⟨rfl, by decide⟩)

/-- The same set, announcing a hundred checkpoints, is within its bytes. -/
theorem slotAnnouncing_hundred_bounded :
    (Costed.backupArchiveState (slotAnnouncing 100)).Bounded (slotAnnouncing 100).length := by
  refine (decoders_bounded_iff (slotAnnouncing 100)).1.mpr fun c hc => ?_
  obtain ⟨records, hc⟩ := hc
  obtain ⟨n, header, rest, ⟨hn, hlt⟩, hslot⟩ := hc.slot_eq
  obtain ⟨hcount, hrest⟩ := append_inj (tail_eq_of_cons_eq hslot) (by simp)
  have hone : 1 = n := beBytes_injOn (by decide) hn hcount
  obtain rfl : records = [] := length_eq_zero_iff.mp (by omega)
  obtain ⟨-, htail⟩ := SetHeader.encode_append_inj hrest
  have hhundred : 100 = c :=
    beBytes_injOn (by decide) hc.count_lt (append_inj htail (by simp)).1
  rw [← hhundred]
  exact ⟨by decide, by decide⟩

end

end Vestrace.Installation

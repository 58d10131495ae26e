import BrickTrace.Lib.OrderedMap
import BrickTrace.Lib.Runs

/-!
# The attachment store

The bytes of an attachment are kept in a file that is named by their digest.  A file is read
twice when it is stored, once to be hashed and once to be copied, and what is copied goes straight
to the file of that name.
-/

set_option autoImplicit false

namespace BrickTrace

open OrderedMap (Map Keyed keyed_empty)

/-! ## Reading a file -/

/-- What the reads of a file return, one after the other.  `none` is a read that fails, a read of
no bytes is the end of the file, and so is the end of the list. -/
abbrev FileReads := List (Option (List UInt8))

/-- The bytes that are read up to the end of the file or the first read that fails, and whether
the end is reached. -/
def bytesRead : FileReads → List UInt8 × Bool
  | [] => ([], true)
  | none :: _ => ([], false)
  | some [] :: _ => ([], true)
  | some (byte :: chunk) :: rest => (byte :: chunk ++ (bytesRead rest).1, (bytesRead rest).2)

/-- The loop of `digestFile`: what has been hashed, and the number of bytes. -/
def digestLoop : FileReads → List UInt8 → Nat → Option (List UInt8 × Nat)
  | [], hashed, sizeBytes => some (hashed, sizeBytes)
  | none :: _, _, _ => none
  | some [] :: _, hashed, sizeBytes => some (hashed, sizeBytes)
  | some (byte :: chunk) :: rest, hashed, sizeBytes =>
      digestLoop rest (hashed ++ (byte :: chunk)) (sizeBytes + (byte :: chunk).length)

def digestFile (sha256 : List UInt8 → String) (path : String) (opened : Bool)
    (reads : FileReads) : Except String (String × Nat) :=
  if !opened then .error ("failed to open attachment file " ++ path)
  else
    match digestLoop reads [] 0 with
    | none => .error ("failed to read attachment file " ++ path)
    | some (hashed, sizeBytes) => .ok (sha256 hashed, sizeBytes)

theorem digestLoop_eq (reads : FileReads) (hashed : List UInt8) (sizeBytes : Nat) :
    digestLoop reads hashed sizeBytes =
      if (bytesRead reads).2 then
        some (hashed ++ (bytesRead reads).1, sizeBytes + (bytesRead reads).1.length)
      else none := by
  induction reads generalizing hashed sizeBytes with
  | nil => simp [digestLoop, bytesRead]
  | cons read rest ih =>
      cases read with
      | none => simp [digestLoop, bytesRead]
      | some chunk =>
          cases chunk with
          | nil => simp [digestLoop, bytesRead]
          | cons byte chunk =>
              rw [digestLoop, ih]
              simp [bytesRead, Nat.add_assoc, Nat.add_comm, Nat.add_left_comm]

theorem digestFile_eq_ok {sha256 : List UInt8 → String} {path : String} {opened : Bool}
    {reads : FileReads} {found : String × Nat} :
    digestFile sha256 path opened reads = .ok found ↔
      opened = true ∧ (bytesRead reads).2 = true ∧
        found = (sha256 (bytesRead reads).1, (bytesRead reads).1.length) := by
  unfold digestFile
  rw [digestLoop_eq]
  cases opened <;> cases (bytesRead reads).2 <;> simp [eq_comm]

/-! ## Copying a file -/

/-- The copy into a new file, chunk by chunk: what the file holds at the end, and whether all of
the source went into it.  A write beyond the room fails, after the bytes for which there is room. -/
def copyLoop (room : Option Nat) : FileReads → List UInt8 → List UInt8 × Bool
  | [], written => (written, true)
  | none :: _, written => (written, false)
  | some [] :: _, written => (written, true)
  | some (byte :: chunk) :: rest, written =>
      if room.all fun room => written.length + (byte :: chunk).length ≤ room then
        copyLoop room rest (written ++ (byte :: chunk))
      else (written ++ (byte :: chunk).take (room.getD 0 - written.length), false)

/-- The part of some bytes for which there is room. -/
def fitting (room : Option Nat) (bytes : List UInt8) : List UInt8 :=
  match room with
  | none => bytes
  | some room => bytes.take room

/-- Whether there is room for all of some bytes. -/
def fits (room : Option Nat) (bytes : List UInt8) : Bool := room.all (bytes.length ≤ ·)

theorem fitting_of_fits {room : Option Nat} {bytes : List UInt8} (all : fits room bytes = true) :
    fitting room bytes = bytes := by
  cases room with
  | none => rfl
  | some room => exact List.take_of_length_le (of_decide_eq_true all)

theorem copyLoop_fst {room : Option Nat} (reads : FileReads) {written : List UInt8}
    (held : fits room written = true) :
    (copyLoop room reads written).1 = fitting room (written ++ (bytesRead reads).1) := by
  induction reads generalizing written with
  | nil => simp [copyLoop, bytesRead, fitting_of_fits held]
  | cons read rest ih =>
      cases read with
      | none => simp [copyLoop, bytesRead, fitting_of_fits held]
      | some chunk =>
          cases chunk with
          | nil => simp [copyLoop, bytesRead, fitting_of_fits held]
          | cons byte chunk =>
              rw [copyLoop, bytesRead, ← List.append_assoc]
              split
              · rename_i enough
                exact ih (by simpa [fits] using enough)
              · rename_i short
                cases room with
                | none => simp at short
                | some room =>
                    have held_le : written.length ≤ room := of_decide_eq_true held
                    have short_lt : room < written.length + (byte :: chunk).length := by
                      simpa using short
                    rw [fitting, List.take_append_of_le_length, List.take_append,
                      List.take_of_length_le held_le]
                    · rfl
                    · rw [List.length_append]
                      exact Nat.le_of_lt short_lt

theorem copyLoop_snd {room : Option Nat} (reads : FileReads) {written : List UInt8}
    (whole : fits room (written ++ (bytesRead reads).1) = true)
    (ended : (bytesRead reads).2 = true) :
    (copyLoop room reads written).2 = true := by
  induction reads generalizing written with
  | nil => rfl
  | cons read rest ih =>
      cases read with
      | none => simp [bytesRead] at ended
      | some chunk =>
          cases chunk with
          | nil => rfl
          | cons byte chunk =>
              rw [bytesRead, ← List.append_assoc] at whole
              rw [bytesRead] at ended
              have enough : (room.all fun room =>
                  decide (written.length + (byte :: chunk).length ≤ room)) = true := by
                cases room with
                | none => rfl
                | some room =>
                    have whole_le := of_decide_eq_true whole
                    simp only [List.length_append] at whole_le
                    simp only [Option.all_some, decide_eq_true_eq]
                    omega
              rw [copyLoop, if_pos enough]
              exact ih whole ended

/-! ## The store -/

structure StoredAttachment where
  originalPath : String
  storagePath : String
  storageUri : String
  sha256 : String
  sizeBytes : Nat
deriving DecidableEq

/-- A store is the files of its directory `blobs/sha256`, by name.  The root is written without
a slash at its end. -/
structure AttachmentStore where
  storageRoot : String
  blobs : Map String (List UInt8)

/-- What one call meets.  The file it is given may be another at each of its reads. -/
structure AttachmentCall where
  sourcePath : String
  /-- Whether the metadata tells of a regular file; `none` when they cannot be read. -/
  isFile : Option Bool
  opened : Bool
  reads : FileReads
  directoryCreated : Bool
  reopened : Bool
  /-- Whether a file can be created under a name that is free. -/
  created : Bool
  copyReads : FileReads
  /-- The number of bytes after which a write fails. -/
  room : Option Nat
  flushed : Bool
  blobOpened : Bool
  /-- Whether the blob can be read back to its end. -/
  blobRead : Bool

namespace AttachmentStore

variable (sha256 : List UInt8 → String)

def new (storageRoot : String) : AttachmentStore := ⟨storageRoot, ∅⟩

def blobDirectory (store : AttachmentStore) : String := store.storageRoot ++ "/blobs/sha256"

def blobPath (store : AttachmentStore) (digest : String) : String :=
  store.blobDirectory ++ "/" ++ digest

/-- A blob is read as it is, unless a read fails. -/
def verifyExistingBlob (store : AttachmentStore) (call : AttachmentCall) (expectedSha256 : String)
    (expectedSize : Nat) : Except String Unit :=
  let path := store.blobPath expectedSha256
  let blob := store.blobs[expectedSha256]?
  let reads := if call.blobRead then [some (blob.getD [])] else [none]
  match digestFile sha256 path (blob.isSome && call.blobOpened) reads with
  | .error failure => .error failure
  | .ok (actualSha256, actualSize) =>
      if actualSha256 ≠ expectedSha256 ∨ actualSize ≠ expectedSize then
        .error ("existing blob " ++ path ++ " does not match expected digest/size")
      else .ok ()

def copyNewBlob (store : AttachmentStore) (call : AttachmentCall) (digest : String) :
    Except String Unit × AttachmentStore :=
  if !call.reopened then
    (.error ("failed to open attachment file " ++ call.sourcePath), store)
  else if store.blobs[digest]?.isSome || !call.created then
    (.error ("failed to create attachment blob " ++ store.blobPath digest), store)
  else
    let (written, whole) := copyLoop call.room call.copyReads []
    let after := { store with blobs := store.blobs.insert digest written }
    if !whole then
      (.error ("failed to copy attachment " ++ call.sourcePath ++ " to " ++ store.blobPath digest),
        after)
    else if !call.flushed then
      (.error ("failed to flush attachment blob " ++ store.blobPath digest), after)
    else (.ok (), after)

def storeFile (store : AttachmentStore) (call : AttachmentCall) :
    Except String StoredAttachment × AttachmentStore :=
  match call.isFile with
  | none => (.error ("failed to read attachment metadata at " ++ call.sourcePath), store)
  | some false => (.error ("attachment path is not a regular file: " ++ call.sourcePath), store)
  | some true =>
      match digestFile sha256 call.sourcePath call.opened call.reads with
      | .error failure => (.error failure, store)
      | .ok (digest, sizeBytes) =>
          let stored : StoredAttachment :=
            { originalPath := call.sourcePath, storagePath := store.blobPath digest
              storageUri := "brick-blob://sha256/" ++ digest, sha256 := digest
              sizeBytes := sizeBytes }
          if !call.directoryCreated then
            (.error ("failed to create attachment blob directory " ++ store.blobDirectory), store)
          else if store.blobs[digest]?.isSome then
            ((store.verifyExistingBlob sha256 call digest sizeBytes).map fun _ => stored, store)
          else
            match store.copyNewBlob call digest with
            | (.error failure, after) => (.error failure, after)
            | (.ok (), after) =>
                ((after.verifyExistingBlob sha256 call digest sizeBytes).map fun _ => stored, after)

end AttachmentStore

/-! ## What one call does -/

namespace AttachmentCall

/-- The bytes that the first pass hashes. -/
def hashed (call : AttachmentCall) : List UInt8 := (bytesRead call.reads).1

/-- The bytes that the second pass gets into a new file. -/
def copied (call : AttachmentCall) : List UInt8 := fitting call.room (bytesRead call.copyReads).1

/-- Both passes read a regular file to its end and find the same bytes, and no operation on the
store fails. -/
structure Undisturbed (call : AttachmentCall) : Prop where
  isFile : call.isFile = some true
  opened : call.opened = true
  ended : (bytesRead call.reads).2 = true
  directoryCreated : call.directoryCreated = true
  reopened : call.reopened = true
  created : call.created = true
  same : bytesRead call.copyReads = bytesRead call.reads
  enough : fits call.room call.hashed = true
  flushed : call.flushed = true
  blobOpened : call.blobOpened = true
  blobRead : call.blobRead = true

end AttachmentCall

namespace AttachmentStore

variable {sha256 : List UInt8 → String} {store : AttachmentStore} {call : AttachmentCall}

/-- The call gets to the directory of the blobs, with the digest of what it hashed. -/
structure Hashes (call : AttachmentCall) : Prop where
  isFile : call.isFile = some true
  opened : call.opened = true
  ended : (bytesRead call.reads).2 = true
  directoryCreated : call.directoryCreated = true

/-- The call comes to copy into a new file: no blob has the digest of what it hashed. -/
structure Creates (sha256 : List UInt8 → String) (store : AttachmentStore)
    (call : AttachmentCall) : Prop extends Hashes call where
  absent : store.blobs[sha256 call.hashed]? = none
  reopened : call.reopened = true
  created : call.created = true

theorem storeFile_of_hashes (sha256 : List UInt8 → String) (store : AttachmentStore)
    (hashes : Hashes call) :
    store.storeFile sha256 call =
      let stored : StoredAttachment :=
        { originalPath := call.sourcePath, storagePath := store.blobPath (sha256 call.hashed)
          storageUri := "brick-blob://sha256/" ++ sha256 call.hashed
          sha256 := sha256 call.hashed, sizeBytes := call.hashed.length }
      if store.blobs[sha256 call.hashed]?.isSome then
        ((store.verifyExistingBlob sha256 call (sha256 call.hashed) call.hashed.length).map
          fun _ => stored, store)
      else
        match store.copyNewBlob call (sha256 call.hashed) with
        | (.error failure, after) => (.error failure, after)
        | (.ok (), after) =>
            ((after.verifyExistingBlob sha256 call (sha256 call.hashed) call.hashed.length).map
              fun _ => stored, after) := by
  have digested : digestFile sha256 call.sourcePath call.opened call.reads =
      .ok (sha256 call.hashed, call.hashed.length) :=
    digestFile_eq_ok.mpr ⟨hashes.opened, hashes.ended, rfl⟩
  simp only [storeFile, hashes.isFile, digested, hashes.directoryCreated]
  rfl

/-- A call that does not get there leaves the store. -/
theorem storeFile_of_not_hashes (sha256 : List UInt8 → String) (store : AttachmentStore)
    (fails : ¬ Hashes call) : (store.storeFile sha256 call).2 = store := by
  unfold storeFile
  split
  · rfl
  · rfl
  · rename_i metadata
    split
    · rfl
    · rename_i digest sizeBytes digested
      obtain ⟨opened, ended, _⟩ := digestFile_eq_ok.mp digested
      cases directory : call.directoryCreated with
      | false => rfl
      | true => exact absurd ⟨metadata, opened, ended, directory⟩ fails

/-- What a copy into a new file leaves, whether it goes to its end or not. -/
theorem copyNewBlob_snd {digest : String} (absent : store.blobs[digest]? = none)
    (reopened : call.reopened = true) (created : call.created = true) :
    (store.copyNewBlob call digest).2 =
      { store with blobs := store.blobs.insert digest call.copied } := by
  have written : (copyLoop call.room call.copyReads []).1 =
      fitting call.room ([] ++ (bytesRead call.copyReads).1) := copyLoop_fst call.copyReads
    (by cases call.room <;> simp [fits])
  simp only [copyNewBlob, reopened, absent, created]
  cases copy : copyLoop call.room call.copyReads [] with
  | mk bytes whole =>
      rw [copy] at written
      have bytes_eq : bytes = call.copied := written
      subst bytes_eq
      cases whole <;> cases call.flushed <;> rfl

/-- A copy that is not made leaves the store. -/
theorem copyNewBlob_of_not {digest : String}
    (fails : ¬ (call.reopened = true ∧ call.created = true)) :
    (store.copyNewBlob call digest).2 = store := by
  unfold copyNewBlob
  cases reopened : call.reopened with
  | false => rfl
  | true =>
      cases created : call.created with
      | false => simp
      | true => exact absurd ⟨reopened, created⟩ fails

theorem storeFile_of_creates (creates : Creates sha256 store call) :
    (store.storeFile sha256 call).2 =
      { store with blobs := store.blobs.insert (sha256 call.hashed) call.copied } := by
  rw [storeFile_of_hashes sha256 store creates.toHashes,
    ← copyNewBlob_snd creates.absent creates.reopened creates.created]
  simp only [creates.absent]
  cases copy : store.copyNewBlob call (sha256 call.hashed) with
  | mk outcome after => cases outcome <;> rfl

theorem storeFile_of_not_creates (fails : ¬ Creates sha256 store call) :
    (store.storeFile sha256 call).2 = store := by
  by_cases hashes : Hashes call
  · rw [storeFile_of_hashes sha256 store hashes]
    cases held : store.blobs[sha256 call.hashed]? with
    | some blob => rfl
    | none =>
        have copy_fails : ¬ (call.reopened = true ∧ call.created = true) := by
          rintro ⟨reopened, created⟩
          exact fails { hashes with absent := held, reopened := reopened, created := created }
        have unchanged : (store.copyNewBlob call (sha256 call.hashed)).2 = store :=
          copyNewBlob_of_not copy_fails
        simp only [Option.isSome_none, Bool.false_eq_true, if_false]
        cases copy : store.copyNewBlob call (sha256 call.hashed) with
        | mk outcome after =>
            rw [copy] at unchanged
            subst unchanged
            cases outcome <;> rfl
  · exact storeFile_of_not_hashes sha256 store hashes

/-! ## An undisturbed call -/

theorem verifyExistingBlob_ok {digest : String} {blob : List UInt8}
    (held : store.blobs[digest]? = some blob) (blobOpened : call.blobOpened = true)
    (blobRead : call.blobRead = true) (own : sha256 blob = digest) :
    store.verifyExistingBlob sha256 call digest blob.length = .ok () := by
  have digested : digestFile sha256 (store.blobPath digest) true [some blob] =
      .ok (digest, blob.length) := by
    rw [digestFile_eq_ok, ← own]
    cases blob <;> simp [bytesRead]
  simp [verifyExistingBlob, held, blobOpened, blobRead, digested]

theorem copyNewBlob_ok (undisturbed : call.Undisturbed) {digest : String}
    (absent : store.blobs[digest]? = none) : (store.copyNewBlob call digest).1 = .ok () := by
  have whole : (copyLoop call.room call.copyReads []).2 = true := copyLoop_snd call.copyReads
    (by rw [undisturbed.same]; exact undisturbed.enough)
    (by rw [undisturbed.same]; exact undisturbed.ended)
  simp only [copyNewBlob, undisturbed.reopened, absent, undisturbed.created]
  cases copy : copyLoop call.room call.copyReads [] with
  | mk bytes outcome =>
      rw [copy] at whole
      simp only at whole
      subst whole
      rw [undisturbed.flushed]
      rfl

end AttachmentStore

namespace AttachmentCall

theorem Undisturbed.hashes {call : AttachmentCall} (undisturbed : call.Undisturbed) :
    AttachmentStore.Hashes call :=
  ⟨undisturbed.isFile, undisturbed.opened, undisturbed.ended, undisturbed.directoryCreated⟩

/-- What an undisturbed call copies is what it hashed. -/
theorem Undisturbed.copied_eq {call : AttachmentCall} (undisturbed : call.Undisturbed) :
    call.copied = call.hashed := by
  rw [copied, undisturbed.same]
  exact fitting_of_fits undisturbed.enough

end AttachmentCall

namespace AttachmentStore

variable {sha256 : List UInt8 → String} {store : AttachmentStore} {call : AttachmentCall}

/-- An undisturbed call succeeds where each blob of its digest holds what it hashed. -/
theorem storeFile_undisturbed (undisturbed : call.Undisturbed)
    (right : ∀ blob, store.blobs[sha256 call.hashed]? = some blob → blob = call.hashed) :
    ∃ stored, (store.storeFile sha256 call).1 = .ok stored := by
  rw [storeFile_of_hashes sha256 store undisturbed.hashes]
  cases held : store.blobs[sha256 call.hashed]? with
  | some blob =>
      obtain rfl := right blob held
      simp [verifyExistingBlob_ok held undisturbed.blobOpened undisturbed.blobRead rfl, Except.map]
  | none =>
      have copied := copyNewBlob_ok undisturbed held
      have after_eq := copyNewBlob_snd held undisturbed.reopened undisturbed.created
      cases copy : store.copyNewBlob call (sha256 call.hashed) with
      | mk outcome after =>
          rw [copy] at copied after_eq
          simp only at copied after_eq
          subst copied after_eq
          have written : (store.blobs.insert (sha256 call.hashed) call.copied)[
              sha256 call.hashed]? = some call.hashed := by
            rw [undisturbed.copied_eq]
            simp
          have verified : verifyExistingBlob sha256 { store with
              blobs := store.blobs.insert (sha256 call.hashed) call.copied } call
              (sha256 call.hashed) call.hashed.length = .ok () :=
            verifyExistingBlob_ok written undisturbed.blobOpened undisturbed.blobRead rfl
          simp [verified, Except.map]

/-! ## Sequences of calls -/

/-- The store after a call. -/
def afterCall (sha256 : List UInt8 → String) (store : AttachmentStore) (call : AttachmentCall) :
    AttachmentStore :=
  (store.storeFile sha256 call).2

/-- After the call each blob has the digest that names it, and the call succeeds if it is
undisturbed. -/
def KeepsBlobs (sha256 : List UInt8 → String) (store : AttachmentStore)
    (call : AttachmentCall) : Prop :=
  Keyed sha256 (store.afterCall sha256 call).blobs ∧
    (call.Undisturbed → ∃ stored, (store.storeFile sha256 call).1 = .ok stored)

/-- If the call comes to copy into a new file, the copy gets there exactly what was hashed. -/
def CopiesWhole (sha256 : List UInt8 → String) (store : AttachmentStore)
    (call : AttachmentCall) : Prop :=
  Creates sha256 store call → call.copied = call.hashed

/-- The contents that play a part in some calls. -/
def ContentMet (store : AttachmentStore) (calls : List AttachmentCall)
    (bytes : List UInt8) : Prop :=
  (∃ digest : String, store.blobs[digest]? = some bytes) ∨
    ∃ call ∈ calls, bytes = call.hashed ∨ bytes = call.copied

/-- No two contents of some calls share a digest. -/
def DigestsApart (sha256 : List UInt8 → String) (store : AttachmentStore)
    (calls : List AttachmentCall) : Prop :=
  ∀ ⦃first second⦄, store.ContentMet calls first → store.ContentMet calls second →
    sha256 first = sha256 second → first = second

theorem contentMet_of_afterCall {rest : List AttachmentCall} {bytes : List UInt8}
    (met : (store.afterCall sha256 call).ContentMet rest bytes) :
    store.ContentMet (call :: rest) bytes := by
  obtain ⟨digest, held⟩ | ⟨other, member, content⟩ := met
  · by_cases creates : Creates sha256 store call
    · rw [afterCall, storeFile_of_creates creates] at held
      simp only [OrderedMap.getElem?_insert_eq] at held
      split at held
      · cases held
        exact Or.inr ⟨call, List.mem_cons_self .., Or.inr rfl⟩
      · exact Or.inl ⟨digest, held⟩
    · rw [afterCall, storeFile_of_not_creates creates] at held
      exact Or.inl ⟨digest, held⟩
  · exact Or.inr ⟨other, List.mem_cons_of_mem _ member, content⟩

/-- One call, among contents of which no two share a digest. -/
theorem keepsBlobs_iff {rest : List AttachmentCall} (keyed : Keyed sha256 store.blobs)
    (apart : DigestsApart sha256 store (call :: rest)) :
    KeepsBlobs sha256 store call ↔ CopiesWhole sha256 store call := by
  have hashed_met : store.ContentMet (call :: rest) call.hashed :=
    Or.inr ⟨call, List.mem_cons_self .., Or.inl rfl⟩
  have copied_met : store.ContentMet (call :: rest) call.copied :=
    Or.inr ⟨call, List.mem_cons_self .., Or.inr rfl⟩
  constructor
  · rintro ⟨kept, _⟩ creates
    rw [afterCall, storeFile_of_creates creates] at kept
    have named : sha256 call.copied = sha256 call.hashed := kept _ _ (by simp)
    exact apart copied_met hashed_met named
  · intro whole
    constructor
    · by_cases creates : Creates sha256 store call
      · rw [afterCall, storeFile_of_creates creates, whole creates]
        exact keyed.insert rfl
      · rw [afterCall, storeFile_of_not_creates creates]
        exact keyed
    · intro undisturbed
      refine storeFile_undisturbed undisturbed fun blob held => ?_
      exact apart (Or.inl ⟨_, held⟩) hashed_met (keyed _ _ held)

end AttachmentStore

open AttachmentStore

/-- In a sequence of calls each blob has the digest that names it after each call, and each
undisturbed call succeeds, exactly when each call that comes to copy into a new file gets there
what it hashed.  No two contents of the sequence may share a digest. -/
theorem blobs_stay_addressed_iff {sha256 : List UInt8 → String} {store : AttachmentStore}
    {calls : List AttachmentCall} (keyed : Keyed sha256 store.blobs)
    (apart : DigestsApart sha256 store calls) :
    Runs.Meets (afterCall sha256) (KeepsBlobs sha256) store calls ↔
      Runs.Meets (afterCall sha256) (CopiesWhole sha256) store calls := by
  induction calls generalizing store with
  | nil => exact Iff.rfl
  | cons call rest ih =>
      have one := keepsBlobs_iff keyed apart
      have later := fun kept => @ih (store.afterCall sha256 call) kept
        fun _ _ firstMet secondMet =>
          apart (contentMet_of_afterCall firstMet) (contentMet_of_afterCall secondMet)
      constructor
      · rintro ⟨kept, others⟩
        exact ⟨one.mp kept, (later kept.1).mp others⟩
      · rintro ⟨whole, others⟩
        have kept := one.mpr whole
        exact ⟨kept, (later kept.1).mpr others⟩

/-! ## A copy that is cut short -/

/-- The digests of the texts `hello` and `he`. -/
def sampleSha256 (bytes : List UInt8) : String :=
  if bytes = [104, 101, 108, 108, 111] then
    "2cf24dba5fb0a30e26e83b2ac5b9e29e1b161e5c1fa7425e73043362938b9824"
  else if bytes = [104, 101] then
    "372f7e2fd2d01ce2a1d71dc072acbba4c6fd25a1087cd7f153f4ec0ce37e1ede"
  else ""

/-- A call for a file that holds `hello`, to whose end it reads without any fault. -/
def helloCall : AttachmentCall where
  sourcePath := "/tmp/notes.txt"
  isFile := some true
  opened := true
  reads := [some [104, 101, 108, 108, 111], some []]
  directoryCreated := true
  reopened := true
  created := true
  copyReads := [some [104, 101, 108, 108, 111], some []]
  room := none
  flushed := true
  blobOpened := true
  blobRead := true

theorem helloCall_undisturbed : helloCall.Undisturbed := by
  constructor <;> decide

/-- A disk that is full after two bytes leaves them under the digest of all five, and the same
file can never be stored again. -/
theorem cut_copy_stays :
    Keyed sampleSha256 (new "/home/user/.brick").blobs ∧ helloCall.Undisturbed ∧
      ¬ Runs.Meets (afterCall sampleSha256) (KeepsBlobs sampleSha256) (new "/home/user/.brick")
        [{ helloCall with room := some 2 }, helloCall] ∧
      (((new "/home/user/.brick").afterCall sampleSha256
        { helloCall with room := some 2 }).storeFile sampleSha256 helloCall).1 =
          .error ("existing blob /home/user/.brick/blobs/sha256/" ++
            "2cf24dba5fb0a30e26e83b2ac5b9e29e1b161e5c1fa7425e73043362938b9824" ++
            " does not match expected digest/size") := by
  have refused : (((new "/home/user/.brick").afterCall sampleSha256
      { helloCall with room := some 2 }).storeFile sampleSha256 helloCall).1 =
        .error ("existing blob /home/user/.brick/blobs/sha256/" ++
          "2cf24dba5fb0a30e26e83b2ac5b9e29e1b161e5c1fa7425e73043362938b9824" ++
          " does not match expected digest/size") := by
    decide +kernel
  refine ⟨keyed_empty sampleSha256, helloCall_undisturbed, ?_, refused⟩
  rintro ⟨_, kept, _⟩
  obtain ⟨stored, succeeded⟩ := kept.2 helloCall_undisturbed
  rw [refused] at succeeded
  cases succeeded

/-- Two calls that nothing disturbs. -/
theorem hello_twice_stays_addressed :
    Runs.Meets (afterCall sampleSha256) (KeepsBlobs sampleSha256) (new "/home/user/.brick")
      [helloCall, helloCall] := by
  refine (blobs_stay_addressed_iff (keyed_empty sampleSha256) ?_).mpr ?_
  · have only_hello : ∀ bytes,
        (new "/home/user/.brick").ContentMet [helloCall, helloCall] bytes →
          bytes = helloCall.hashed := by
      rintro bytes (⟨digest, held⟩ | ⟨call, member, content⟩)
      · simp [new] at held
      · have call_eq : call = helloCall := by simpa using member
        subst call_eq
        rw [helloCall_undisturbed.copied_eq, or_self] at content
        exact content
    intro first second firstMet secondMet _
    rw [only_hello first firstMet, only_hello second secondMet]
  · exact ⟨fun _ => helloCall_undisturbed.copied_eq, fun _ => helloCall_undisturbed.copied_eq,
      trivial⟩

end BrickTrace

import NetlinkHub.Agent.Identity
import NetlinkHub.Concurrent.Replay

/-! # The macOS keychain

`sealing.go` and `keystore_darwin.go`: the device key is sealed under a wrapping key that the Keychain holds.
The wrapping key is made on first use, by a process that looks for it, finds none and adds its own. The
addition takes the place of what another process has added meanwhile, and what was sealed under that is lost:
every file opens at every moment exactly when no addition comes after a file that was sealed under another
key (`sealed_opens_iff`). -/

namespace Keychain

open Concurrent (Config Log Machine Move Prog Step)
open Posix (Bytes)

/-! ## Sealing -/

/-- `wrappingKeySize`. -/
def wrappingKeySize : ℕ := 32

/-- `nonceSize`. -/
def nonceSize : ℕ := 12

/-- A key as `randomKey` makes it. -/
structure WrappingKey where
  bytes : Bytes
  size : bytes.length = wrappingKeySize
  deriving DecidableEq

/-- A nonce as `sealWithKey` draws it. -/
structure Nonce where
  bytes : Bytes
  size : bytes.length = nonceSize

/-- AES-256-GCM. What is sealed is opened with its key and nonce. -/
structure GCM where
  overhead : ℕ
  sealing : WrappingKey → Bytes → Bytes → Bytes
  opening : WrappingKey → Bytes → Bytes → Option Bytes
  length_sealing : ∀ key nonce plaintext, (sealing key nonce plaintext).length = plaintext.length + overhead
  opening_sealing : ∀ key nonce plaintext, opening key nonce (sealing key nonce plaintext) = some plaintext

/-- Why an operation fails. -/
inductive Failure where
  /-- `errNoKeychainItem`. -/
  | noItem
  /-- `ErrTampered`. -/
  | tampered
  | other (text : String)
  deriving DecidableEq, Repr

variable (gcm : GCM)

/-- `sealWithKey`: the nonce, and what is sealed with it. -/
def sealWithKey (wrapping : WrappingKey) (nonce : Nonce) (plaintext : Bytes) : Bytes :=
  nonce.bytes ++ gcm.sealing wrapping nonce.bytes plaintext

/-- `openWithKey`. -/
def openWithKey (wrapping : WrappingKey) (ciphertext : Bytes) : Except Failure Bytes :=
  if ciphertext.length < nonceSize + gcm.overhead then .error .tampered
  else match gcm.opening wrapping (ciphertext.take nonceSize) (ciphertext.drop nonceSize) with
    | none => .error .tampered
    | some plaintext => .ok plaintext

/-- What is opened of what was sealed under another key, or the same. -/
theorem openWithKey_sealWithKey (wrapping wrapping' : WrappingKey) (nonce : Nonce) (plaintext : Bytes) :
    openWithKey gcm wrapping' (sealWithKey gcm wrapping nonce plaintext) =
      match gcm.opening wrapping' nonce.bytes (gcm.sealing wrapping nonce.bytes plaintext) with
      | none => .error .tampered
      | some plaintext => .ok plaintext := by
  have hlength : ¬ (sealWithKey gcm wrapping nonce plaintext).length < nonceSize + gcm.overhead := by
    rw [sealWithKey, List.length_append, nonce.size, gcm.length_sealing]
    omega
  have htake : (sealWithKey gcm wrapping nonce plaintext).take nonceSize = nonce.bytes := by
    rw [sealWithKey, ← nonce.size, List.take_left]
  have hdrop : (sealWithKey gcm wrapping nonce plaintext).drop nonceSize =
      gcm.sealing wrapping nonce.bytes plaintext := by
    rw [sealWithKey, ← nonce.size, List.drop_left]
  rw [openWithKey, if_neg hlength, htake, hdrop]

/-! ## The Keychain -/

/-- The item of the agent in the login Keychain, and whether the next access is refused: the Keychain is
locked, or the user denies a prompt. -/
structure State where
  item : Option (List Char)
  refuses : Bool

/-- A call of the `security` tool. -/
inductive Call where
  /-- `find-generic-password`. -/
  | find
  /-- `add-generic-password -U`. -/
  | add (password : List Char)

/-- What a call does to the Keychain. With `-U`, an item that is there is replaced. -/
def Call.exec : Call → State → State
  | .find, s => s
  | .add password, s => if s.refuses then s else { s with item := some password }

/-- What `read` makes of the line that the tool prints. -/
def decodeItem (line : List Char) : Except Failure WrappingKey :=
  match Text.stdDecode (Text.trimSpace line) with
  | none => .error (.other "netlink: the Keychain item is not valid")
  | some decoded =>
    if h : decoded.length = wrappingKeySize then .ok ⟨decoded, h⟩
    else .error (.other "netlink: the Keychain item is the wrong size")

/-- `read`, of an access that is not refused. -/
def State.key (s : State) : Except Failure WrappingKey :=
  match s.item with
  | none => .error .noItem
  | some password => decodeItem (password ++ ['\n'])

/-- `read`. -/
def State.read (s : State) : Except Failure WrappingKey :=
  if s.refuses then .error (.other "netlink: could not read the Keychain") else s.key

/-- The password that `write` adds for a key. -/
def password (key : WrappingKey) : List Char := Text.stdEncode key.bytes

/-- A program of the key store. -/
abbrev Store := Prog State Call Failure

/-- The end of `wrappingKey`: what is there now is the key. -/
def readBack : Store WrappingKey :=
  .stmt .find fun s => match s.read with
    | .ok key => .done key
    | .error e => .raise e

/-- `wrappingKey`. -/
def wrappingKey (fresh : WrappingKey) : Store WrappingKey :=
  .stmt .find fun s => match s.read with
    | .ok existing => .done existing
    | .error e =>
      if e ≠ .noItem then .raise e
      else .stmt (.add (password fresh)) fun s =>
        if s.refuses then .raise (.other "netlink: could not write to the Keychain") else readBack

/-- `Protect`. -/
def protect (fresh : WrappingKey) (nonce : Nonce) (plaintext : Bytes) : Store Bytes := do
  let wrapping ← wrappingKey fresh
  .done (sealWithKey gcm wrapping nonce plaintext)

/-- `Unprotect`. -/
def unprotect (fresh : WrappingKey) (ciphertext : Bytes) : Store Bytes := do
  let wrapping ← wrappingKey fresh
  match openWithKey gcm wrapping ciphertext with
  | .error e => .raise e
  | .ok plaintext => .done plaintext

/-- What a process may ask of the key store, and what it draws for it. -/
inductive Request where
  | protect (fresh : WrappingKey) (nonce : Nonce) (plaintext : Bytes)
  | unprotect (fresh : WrappingKey) (ciphertext : Bytes)

/-- The key store, used by any number of processes. From time to time the Keychain refuses, or does not. -/
def store : Machine State Call Failure Request Bool Bytes where
  handler
    | .protect fresh nonce plaintext => protect gcm fresh nonce plaintext
    | .unprotect fresh ciphertext => unprotect gcm fresh ciphertext
  exec := Call.exec
  env refuses s := { s with refuses := refuses }

/-- The key store after a run. -/
abbrev storeRun (s : State) (moves : List (Move Request Bool)) : Config State Call Failure Request Bytes :=
  Run.run (store gcm).step moves (Config.initial s)

/-- A statement of such a run. -/
abbrev StoreStep := Step State Call Request

/-- The log of such a run. -/
abbrev StoreLog := Log State Call Request

@[simp] theorem key_refuses (s : State) (refuses : Bool) : ({ s with refuses := refuses } : State).key = s.key := rfl

/-- The key that was added is the key that is read. -/
theorem decodeItem_password (key : WrappingKey) : decodeItem (password key ++ ['\n']) = .ok key := by
  rw [decodeItem, password, Text.trimSpace_line fun c hc => Text.isSpace_stdEncode hc, Text.stdDecode_encode]
  exact dif_pos key.size

theorem key_add (key : WrappingKey) (s : State) : ((Call.add (password key)).exec s).key =
    if s.refuses then s.key else .ok key := by
  have hexec : (Call.add (password key)).exec s =
      if s.refuses then s else { s with item := some (password key) } := rfl
  rw [hexec]
  split
  · rfl
  · exact decodeItem_password key

/-- An item that is there is not taken for none. -/
theorem decodeItem_ne_noItem (line : List Char) : decodeItem line ≠ .error .noItem := by
  unfold decodeItem
  split
  · exact nofun
  · split <;> exact nofun

theorem read_eq_ok {s : State} {key : WrappingKey} : s.read = .ok key ↔ s.refuses = false ∧ s.key = .ok key := by
  unfold State.read
  cases s.refuses <;> simp

theorem read_eq_noItem {s : State} : s.read = .error .noItem ↔ s.refuses = false ∧ s.item = none := by
  unfold State.read State.key
  cases s.refuses <;> cases s.item <;> simp [decodeItem_ne_noItem]

/-! ## What a run seals -/

/-- The statement reads the key that a `Protect` seals under. -/
def Seals (key : WrappingKey) (step : StoreStep) : Prop :=
  step.write = .find ∧ step.before.read = .ok key ∧
    ∃ fresh nonce plaintext, step.request = .protect fresh nonce plaintext

/-- The statement puts another key in the place of one that something was sealed under. -/
def Orphans (step : StoreStep) (earlier : List StoreStep) : Prop :=
  ∃ key, step.write = .add (password key) ∧ step.before.refuses = false ∧
    ∃ sealed ∈ earlier, ∃ key', Seals key' sealed ∧ key' ≠ key

/-- A `security` call of the store: what is added is a key. -/
def Issued : Call → Prop
  | .find => True
  | .add text => ∃ key, text = password key

variable {gcm} {s : State} {moves : List (Move Request Bool)}

theorem issued_wrappingKey (fresh : WrappingKey) : (wrappingKey fresh).Only Issued := by
  refine .stmt trivial fun s => ?_
  split
  · trivial
  · split
    · trivial
    · refine .stmt ⟨fresh, rfl⟩ fun s => ?_
      split
      · trivial
      · refine .stmt trivial fun s => ?_
        split <;> trivial

theorem issued_handler (q : Request) : ((store gcm).handler q).Only Issued := by
  cases q with
  | protect fresh nonce plaintext => exact (issued_wrappingKey fresh).bind fun _ => trivial
  | unprotect fresh ciphertext =>
    refine (issued_wrappingKey fresh).bind fun wrapping => ?_
    split <;> trivial

/-- Where `wrappingKey` reads a key, it ends with it. -/
theorem after_wrappingKey {fresh key : WrappingKey} {found : State} {states : List State}
    (hmem : (Call.find, found) ∈ (wrappingKey fresh).carried states) (hread : found.read = .ok key) :
    (wrappingKey fresh).after states = .done key := by
  cases states with
  | nil => simp at hmem
  | cons s₁ states =>
    unfold wrappingKey at hmem ⊢
    rw [Prog.carried_stmt, List.mem_cons] at hmem
    rw [Prog.after_stmt]
    split at hmem
    · rename_i existing hexisting
      obtain rfl : found = s₁ := by simpa using hmem
      rw [hread] at hexisting
      rw [Except.ok.inj hexisting, Prog.after_done]
    · rename_i e he
      have hlater : found ≠ s₁ := by
        rintro rfl
        rw [hread] at he
        cases he
      split at hmem
      · simp [hlater] at hmem
      · rename_i hnone
        rw [if_neg hnone]
        cases states with
        | nil => simp [hlater] at hmem
        | cons s₂ states =>
          rw [Prog.carried_stmt] at hmem
          rw [Prog.after_stmt]
          split at hmem
          · simp [hlater] at hmem
          · rename_i hadded
            rw [if_neg hadded]
            cases states with
            | nil => simp [hlater] at hmem
            | cons s₃ states =>
              unfold readBack at hmem ⊢
              rw [Prog.carried_stmt] at hmem
              rw [Prog.after_stmt]
              split at hmem
              · rename_i key' hkey'
                obtain rfl : found = s₃ := by simpa [hlater] using hmem
                rw [hread] at hkey'
                rw [Except.ok.inj hkey', Prog.after_done]
              · rename_i e' he'
                obtain rfl : found = s₃ := by simpa [hlater] using hmem
                rw [hread] at he'
                cases he'

/-- A `Protect` that has read its key has ended with what it seals. -/
theorem answered_of_seals {key : WrappingKey} {step : StoreStep} {fresh : WrappingKey} {nonce : Nonce}
    {plaintext : Bytes} (hstep : step ∈ (storeRun gcm s moves).log.history) (hseals : Seals key step)
    (hrequest : step.request = .protect fresh nonce plaintext) :
    (storeRun gcm s moves).Answered step.thread (.protect fresh nonce plaintext)
      (sealWithKey gcm key nonce plaintext) := by
  obtain ⟨⟨request, prog⟩, ht, hthread, hmem⟩ := Concurrent.carried_of_mem hstep
  obtain rfl : request = .protect fresh nonce plaintext := hthread.trans hrequest
  have hprog := Concurrent.prog_run ht
  dsimp only [store, protect] at hmem hprog
  rw [Prog.carried_bind (fun _ states => Prog.carried_done _ states), hseals.1] at hmem
  obtain ⟨rest, hafter⟩ := Prog.after_bind
    (f := fun wrapping => .done (sealWithKey gcm wrapping nonce plaintext)) (after_wrappingKey hmem hseals.2.1)
  rw [hafter, Prog.after_done] at hprog
  rw [Config.Answered, ht, hprog]

theorem traces_wrappingKey (fresh : WrappingKey) (i : ℕ) (q : Request) (own : List StoreStep) :
    (wrappingKey fresh).Traces (fun _ _ => True) i q (fun r own => ∀ key, r = .ok key →
      ∃ step ∈ own, step.write = .find ∧ step.before.read = .ok key) own := by
  refine .stmt (fun _ => trivial) fun s => ?_
  split
  · rename_i existing hexisting
    rintro key ⟨⟩
    exact ⟨_, List.mem_cons_self, rfl, hexisting⟩
  · split
    · exact nofun
    · refine .stmt (fun _ => trivial) fun s => ?_
      split
      · exact nofun
      · refine .stmt (fun _ => trivial) fun s => ?_
        split
        · rename_i key hkey
          rintro key' ⟨⟩
          exact ⟨_, List.mem_cons_self, rfl, hkey⟩
        · exact nofun

/-- What a `Protect` has answered was sealed under a key that it has read. -/
theorem seals_of_answered {i : ℕ} {fresh : WrappingKey} {nonce : Nonce} {plaintext ciphertext : Bytes}
    (h : (storeRun gcm s moves).Answered i (.protect fresh nonce plaintext) ciphertext) :
    ∃ step ∈ (storeRun gcm s moves).log.history, ∃ key, Seals key step ∧
      ciphertext = sealWithKey gcm key nonce plaintext := by
  have htraces : ∀ i q, ((store gcm).handler q).Traces (fun _ _ => True) i q
      (fun r own => ∀ fresh nonce plaintext, q = .protect fresh nonce plaintext → ∀ ciphertext, r = .ok ciphertext →
        ∃ step ∈ own, step.write = .find ∧ ∃ key, step.before.read = .ok key ∧
          ciphertext = sealWithKey gcm key nonce plaintext) [] := by
    intro i q
    cases q with
    | unprotect fresh ciphertext =>
      exact (Prog.Traces.of_only (J := fun _ => True) (Prog.only_true _) (fun _ _ _ _ _ => ⟨trivial, trivial⟩)
        trivial).mono fun _ _ _ _ _ _ => nofun
    | protect fresh nonce plaintext =>
      refine (traces_wrappingKey fresh i _ []).bind (fun key own hread => ?_) fun _ _ _ _ _ _ _ _ => nofun
      rintro _ _ _ ⟨⟩ _ ⟨⟩
      obtain ⟨step, hstep, hfind, hread⟩ := hread key rfl
      exact ⟨step, hstep, hfind, key, hread, rfl⟩
  obtain ⟨step, hstep, hfind, key, hread, hsealed⟩ :=
    (Concurrent.traced_run (K := fun q r own => ∀ fresh nonce plaintext, q = .protect fresh nonce plaintext →
      ∀ ciphertext, r = .ok ciphertext → ∃ step ∈ own, step.write = .find ∧ ∃ key, step.before.read = .ok key ∧
        ciphertext = sealWithKey gcm key nonce plaintext) htraces s moves).2 i _ _ h _ _ _ rfl _ rfl
  exact ⟨step, (List.mem_filter.mp hstep).1, key,
    ⟨hfind, hread, _, _, _, Concurrent.request_of_answered h hstep⟩, hsealed⟩

/-! ## What is opened again -/

/-- An `Unprotect` that runs undisturbed and is not refused comes to the plaintext. -/
def Opens (gcm : GCM) (ciphertext plaintext : Bytes) (s : State) : Prop :=
  ∀ fresh, ((unprotect gcm fresh ciphertext).runAlone Call.exec { s with refuses := false }).1 = .ok plaintext

/-- While there is a key, a file is opened with it. -/
theorem opens_iff {key : WrappingKey} {ciphertext plaintext : Bytes} (h : s.key = .ok key) :
    Opens gcm ciphertext plaintext s ↔ openWithKey gcm key ciphertext = .ok plaintext := by
  have hread : ({ s with refuses := false } : State).read = .ok key := read_eq_ok.mpr ⟨rfl, h⟩
  have hrun : ∀ fresh, ((unprotect gcm fresh ciphertext).runAlone Call.exec { s with refuses := false }).1 =
      openWithKey gcm key ciphertext := by
    intro fresh
    simp only [unprotect, wrappingKey, Prog.stmt_bind, Prog.runAlone, hread, Prog.done_bind]
    cases openWithKey gcm key ciphertext <;> rfl
  exact ⟨fun hopens => (hrun key).symm.trans (hopens key), fun hopen fresh => (hrun fresh).trans hopen⟩

/-- Everything that was sealed so far was sealed under the key that is there now. -/
def Held (σ : StoreLog) : Prop := ∀ step ∈ σ.history, ∀ key, Seals key step → σ.shared.key = .ok key

/-- The cipher tells the keys of a run apart: what was sealed under one is not opened with another. -/
def TellsApart (gcm : GCM) (history : List StoreStep) : Prop :=
  ∀ sealed ∈ history, ∀ key fresh nonce plaintext, Seals key sealed →
    sealed.request = .protect fresh nonce plaintext → ∀ added ∈ history, ∀ key', added.write = .add (password key') →
      key' ≠ key → gcm.opening key' nonce.bytes (gcm.sealing key nonce.bytes plaintext) = none

theorem password_injective {key key' : WrappingKey} (h : password key = password key') : key = key' := by
  have hread := decodeItem_password key
  rw [h, decodeItem_password] at hread
  exact (Except.ok.inj hread).symm

/-- **What loses a file.** -/
theorem decides_held (gcm : GCM) : Concurrent.Decides (store gcm) (fun step => Issued step.write) Held
    fun step earlier => ¬ Orphans step earlier where
  env refuses σ h := h
  step i q call σ hissued h := by
    cases call with
    | find =>
      refine iff_of_true (fun step hstep key hseals => ?_) fun ⟨key, hadd, _⟩ => nomatch hadd
      rcases List.mem_cons.mp hstep with rfl | hstep
      · exact (read_eq_ok.mp hseals.2.1).2
      · exact h step hstep key hseals
    | add text =>
      obtain ⟨key, rfl⟩ := hissued
      have hkey : (σ.perform (store gcm).exec i q (.add (password key))).shared.key =
          if σ.shared.refuses then σ.shared.key else .ok key := key_add key σ.shared
      constructor
      · rintro hheld ⟨key', hadd, hrefuses, sealed, hsealed, key'', hseals, hne⟩
        obtain rfl := password_injective (Call.add.inj hadd)
        have hnow := hheld sealed (List.mem_cons_of_mem _ hsealed) key'' hseals
        rw [hkey, hrefuses] at hnow
        exact hne (Except.ok.inj hnow).symm
      · intro hnot step hstep key' hseals
        rcases List.mem_cons.mp hstep with rfl | hstep
        · exact nomatch hseals.1
        · rw [hkey]
          split
          · exact h step hstep key' hseals
          · rename_i hrefuses
            by_contra hne
            exact hnot ⟨key, rfl, by simpa using hrefuses, step, hstep, key', hseals, fun heq => hne (heq ▸ rfl)⟩

/-- What was sealed under the key that is there is opened. -/
theorem opens_of_key {key : WrappingKey} {nonce : Nonce} {plaintext : Bytes} (h : s.key = .ok key) :
    Opens gcm (sealWithKey gcm key nonce plaintext) plaintext s := by
  rw [opens_iff h, openWithKey_sealWithKey, gcm.opening_sealing]

/-- **The race for the wrapping key.** In any interleaving of processes that seal and open, everything that
was sealed is opened at every moment, exactly when no key is added after something was sealed under another
one. -/
theorem sealed_opens_iff (gcm : GCM) (s : State) (moves : List (Move Request Bool))
    (hapart : TellsApart gcm (storeRun gcm s moves).log.history) :
    (∀ before after, moves = before ++ after → ∀ i fresh nonce plaintext ciphertext,
        (storeRun gcm s before).Answered i (.protect fresh nonce plaintext) ciphertext →
          Opens gcm ciphertext plaintext (storeRun gcm s before).log.shared) ↔
      ∀ step earlier, step :: earlier <:+ (storeRun gcm s moves).log.history → ¬ Orphans step earlier := by
  have hissued : ∀ step ∈ (storeRun gcm s moves).log.history, Issued step.write :=
    Concurrent.only_run (P := fun _ => Issued) issued_handler s moves
  have hstart : Held ⟨s, []⟩ := by simp [Held]
  constructor
  · rintro hopens step earlier hsuffix ⟨key, hadd, hrefuses, sealed, hsealed, key', hseals, hne⟩
    -- The moment after the addition: the thread that has sealed has ended long before.
    obtain ⟨before, m, after, rfl, hlog, hhistory⟩ := Concurrent.reached_of_suffix hsuffix
    obtain ⟨fresh, nonce, plaintext, hrequest⟩ := hseals.2.2
    have hmem : sealed ∈ (storeRun gcm s (before ++ [m])).log.history := by
      rw [hhistory]
      exact List.mem_cons_of_mem _ hsealed
    have hanswered := answered_of_seals hmem hseals hrequest
    have hopen := hopens (before ++ [m]) after (by rw [List.append_assoc]; rfl) _ _ _ _ _ hanswered
    have hkey : (storeRun gcm s (before ++ [m])).log.shared.key = .ok key := by
      simp only [storeRun, Run.run_append, Run.run_cons, Run.run_nil] at hhistory ⊢
      rw [Concurrent.shared_of_history hlog hhistory, hadd]
      exact (key_add key step.before).trans (by rw [hrefuses]; rfl)
    rw [opens_iff hkey, openWithKey_sealWithKey, hapart sealed (hsuffix.subset (List.mem_cons_of_mem _ hsealed)) key'
      fresh nonce plaintext hseals hrequest step (hsuffix.subset List.mem_cons_self) key hadd hne.symm] at hopen
    exact nomatch hopen
  · intro hnot before after hmoves i fresh nonce plaintext ciphertext hanswered
    obtain ⟨step, hstep, key, hseals, rfl⟩ := seals_of_answered hanswered
    exact opens_of_key (((decides_held gcm).forall_reached_iff hstart moves hissued).mpr hnot before after hmoves
      step hstep key hseals)

/-! ## Once there is a key -/

/-- A process adds a key only if it has looked for one and found none. -/
theorem traces_adds (fresh : WrappingKey) (i : ℕ) (q : Request) :
    (wrappingKey fresh).Traces (fun step own => ∀ text, step.write = .add text →
      ∃ look ∈ own, look.before.item = none) i q (fun _ _ => True) [] := by
  refine .stmt (fun _ => nofun) fun s => ?_
  split
  · trivial
  · split
    · trivial
    · rename_i e he hnone
      obtain rfl := not_not.mp hnone
      refine .stmt (fun _ _ _ => ⟨_, List.mem_cons_self, (read_eq_noItem.mp he).2⟩) fun s => ?_
      split
      · trivial
      · refine .stmt (fun _ => nofun) fun s => ?_
        split <;> trivial

/-- The state has an item. -/
def HasItem (s : State) : Prop := s.item.isSome

/-- An item is replaced, and not taken away. -/
theorem kept_item (gcm : GCM) : Concurrent.Kept (store gcm) (fun _ => True) HasItem fun _ _ => True where
  refl _ := trivial
  trans _ _ := trivial
  env _ _ h := ⟨trivial, h⟩
  step step _ h := by
    refine ⟨trivial, ?_⟩
    show HasItem (step.write.exec step.before)
    cases step.write with
    | find => exact h
    | add text =>
      show HasItem (if step.before.refuses then step.before else { step.before with item := some text })
      split
      · exact h
      · exact rfl

/-- **Where there is a key, nothing is lost.** -/
theorem sealed_opens_of_key (gcm : GCM) (s : State) (hitem : HasItem s) (moves : List (Move Request Bool))
    {i : ℕ} {fresh : WrappingKey} {nonce : Nonce} {plaintext ciphertext : Bytes}
    (h : (storeRun gcm s moves).Answered i (.protect fresh nonce plaintext) ciphertext) :
    Opens gcm ciphertext plaintext (storeRun gcm s moves).log.shared := by
  have htraces : ∀ i q, ((store gcm).handler q).Traces (fun step own => ∀ text, step.write = .add text →
      ∃ look ∈ own, look.before.item = none) i q (fun _ _ => True) [] := by
    intro i q
    cases q with
    | protect fresh nonce plaintext => exact (traces_adds fresh i _).bind (fun _ _ _ => trivial) fun _ _ _ => trivial
    | unprotect fresh ciphertext =>
      refine (traces_adds fresh i _).bind (fun key own _ => ?_) fun _ _ _ => trivial
      split <;> trivial
  have htraced := (Concurrent.traced_run (K := fun _ _ _ => True) htraces s moves).1
  have hfound := ((kept_item gcm).run hitem moves [] fun _ _ => trivial).2
  rw [List.append_nil] at hfound
  -- Every statement finds an item, so no process adds one.
  have hnot : ∀ step earlier, step :: earlier <:+ (storeRun gcm s moves).log.history → ¬ Orphans step earlier := by
    rintro step earlier hsuffix ⟨key, hadd, -⟩
    obtain ⟨look, hlook, hnone⟩ := htraced step earlier hsuffix _ hadd
    have hmem := hsuffix.subset (List.mem_cons_of_mem _ (List.mem_filter.mp hlook).1)
    have hsome : HasItem look.before := (hfound.before look hmem).1
    rw [HasItem, hnone] at hsome
    exact nomatch hsome
  obtain ⟨step, hstep, key, hseals, rfl⟩ := seals_of_answered h
  have hissued : ∀ step ∈ (storeRun gcm s moves).log.history, Issued step.write :=
    Concurrent.only_run (P := fun _ => Issued) issued_handler s moves
  exact opens_of_key (((decides_held gcm).forall_reached_iff (by simp [Held]) moves hissued).mpr hnot moves []
    (List.append_nil _).symm step hstep key hseals)

/-- A nonce out of random bytes. -/
def nonceOf (random : Bytes) : Nonce :=
  ⟨(random ++ List.replicate nonceSize 0).take nonceSize, by simp⟩

/-- The platform of an identity store on a machine whose Keychain holds the key. -/
def platform (gcm : GCM) (key : WrappingKey) (codec : IdentityStore.Platform) : IdentityStore.Platform :=
  { codec with
    protect := fun random plaintext => some (sealWithKey gcm key (nonceOf random) plaintext)
    unprotect := fun ciphertext => (openWithKey gcm key ciphertext).toOption
    unprotect_protect := fun random plaintext => ⟨_, rfl, by
      rw [openWithKey_sealWithKey, gcm.opening_sealing]
      rfl⟩ }

/-- On such a machine `Protect` and `Unprotect` are those of the platform. -/
theorem runAlone_eq_platform {key : WrappingKey} (h : s.read = .ok key) (codec : IdentityStore.Platform)
    (fresh : WrappingKey) (random bytes : Bytes) :
    ((protect gcm fresh (nonceOf random) bytes).runAlone Call.exec s).1.toOption =
        (platform gcm key codec).protect random bytes ∧
      ((unprotect gcm fresh bytes).runAlone Call.exec s).1.toOption = (platform gcm key codec).unprotect bytes := by
  constructor
  · simp only [protect, wrappingKey, Prog.stmt_bind, Prog.runAlone, h, Prog.done_bind]
    rfl
  · simp only [unprotect, wrappingKey, Prog.stmt_bind, Prog.runAlone, h, Prog.done_bind]
    show _ = (openWithKey gcm key bytes).toOption
    cases openWithKey gcm key bytes <;> rfl

/-! ## Two first starts -/

/-- A cipher that writes its key in front. -/
def plainGCM : GCM where
  overhead := 32
  sealing key _ plaintext := key.bytes ++ plaintext
  opening key _ ciphertext := if ciphertext.take 32 = key.bytes then some (ciphertext.drop 32) else none
  length_sealing key _ plaintext := by
    rw [List.length_append, key.size, Nat.add_comm]
    rfl
  opening_sealing key _ plaintext := by
    have htake : (key.bytes ++ plaintext).take 32 = key.bytes := List.take_left' key.size
    have hdrop : (key.bytes ++ plaintext).drop 32 = plaintext := List.drop_left' key.size
    rw [htake, hdrop, if_pos rfl]

theorem tellsApart_plain (history : List StoreStep) : TellsApart plainGCM history := by
  intro sealed _ key fresh nonce plaintext _ _ added _ key' _ hne
  have htake : (key.bytes ++ plaintext).take 32 = key.bytes := List.take_left' key.size
  show (if (key.bytes ++ plaintext).take 32 = key'.bytes then _ else none) = none
  rw [htake, if_neg]
  exact fun heq => hne (by cases key; cases key'; simpa using heq.symm)

/-- A key whose bytes are all the same. -/
def keyOf (b : UInt8) : WrappingKey := ⟨List.replicate 32 b, by simp [wrappingKeySize]⟩

/-- Two processes that start for the first time. -/
def firstStarts : List (Move Request Bool) :=
  [.call (.protect (keyOf 1) ⟨List.replicate 12 0, rfl⟩ [7]), .call (.protect (keyOf 2) ⟨List.replicate 12 0, rfl⟩ [8]),
    .step 0, .step 1, .step 0, .step 0, .step 1]

/-- **The first file is lost.** Both processes find no key, and the second one adds its own after the first has
sealed. -/
theorem sealed_opens_iff_firstStarts : ¬ ∀ before after, firstStarts = before ++ after →
    ∀ i fresh nonce plaintext ciphertext,
      (storeRun plainGCM ⟨none, false⟩ before).Answered i (.protect fresh nonce plaintext) ciphertext →
        Opens plainGCM ciphertext plaintext (storeRun plainGCM ⟨none, false⟩ before).log.shared := by
  intro hopens
  refine (sealed_opens_iff plainGCM ⟨none, false⟩ firstStarts (tellsApart_plain _)).mp hopens _ _
    (List.suffix_refl _) ⟨keyOf 2, rfl, rfl, _, List.mem_cons_self, keyOf 1, ⟨rfl, ?_, _, _, _, rfl⟩, by decide⟩
  exact read_eq_ok.mpr ⟨rfl, decodeItem_password (keyOf 1)⟩

/-- A machine whose Keychain holds the first key, on which one process seals. -/
def laterStart : List (Move Request Bool) :=
  [.call (.protect (keyOf 2) ⟨List.replicate 12 0, rfl⟩ [7]), .step 0]

/-- It seals under the key that it finds. -/
theorem sealed_opens_of_key_laterStart : Opens plainGCM
    (sealWithKey plainGCM (keyOf 1) ⟨List.replicate 12 0, rfl⟩ [7]) [7]
    (storeRun plainGCM ⟨some (password (keyOf 1)), false⟩ laterStart).log.shared := by
  have hread : State.read ⟨some (password (keyOf 1)), false⟩ = .ok (keyOf 1) :=
    read_eq_ok.mpr ⟨rfl, decodeItem_password (keyOf 1)⟩
  have hanswered : (storeRun plainGCM ⟨some (password (keyOf 1)), false⟩ laterStart).Answered 0
      (.protect (keyOf 2) ⟨List.replicate 12 0, rfl⟩ [7])
      (sealWithKey plainGCM (keyOf 1) ⟨List.replicate 12 0, rfl⟩ [7]) := by
    simp [Concurrent.Config.Answered, storeRun, laterStart, Machine.step, Config.advance, Config.initial, store, protect,
      wrappingKey, Prog.stmt_bind, hread, Prog.done_bind]
  exact sealed_opens_of_key plainGCM ⟨some (password (keyOf 1)), false⟩ rfl laterStart hanswered

end Keychain

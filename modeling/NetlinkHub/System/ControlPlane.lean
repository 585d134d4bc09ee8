import NetlinkHub.Resources.Machine
import NetlinkHub.Sharing.Machine

/-! # The control plane

All services of the control plane as one machine: those of accounts, power and remote control, those of
Spaces and data, and those of resources, files and printing. Step-up codes are issued and sent again from
outside. Whatever runs, a code stays its user's and, once it is used up, it stays used up
(`kept_codes`). -/

namespace ControlPlane

open Api (ChallengeRow CodeStays Date HttpException)
open Concurrent (Config Kept Log Machine Move Prog Step)
open Table (Evolves Op)

variable {P : Type}

/-! ## The machine -/

/-- Everything a statement can read or write. -/
structure World (P : Type) where
  sharing : Sharing.World P
  resources : List Resources.ResourceRow
  transfers : List Resources.TransferRow
  printJobs : List Resources.PrintJobRow

/-- The world of the account, power and remote services. -/
def World.account (w : World P) : Account.World := w.sharing.view

/-- The world of the services of resources, files and printing. -/
def World.files (w : World P) : Resources.World := ⟨w.account, w.resources, w.transfers, w.printJobs⟩

/-- The step-up codes. -/
def World.codes (w : World P) : List ChallengeRow := w.sharing.account.api.challenges

/-- What a statement does to the database. -/
inductive Write where
  /-- A statement of the services of Spaces and data, or of those beside them. -/
  | sharing (w : Sharing.Write)
  /-- A statement of the services of resources, files and printing. -/
  | files (w : Resources.Write)

/-- The database after a statement. -/
def exec (A : Sharing.DataProviderAdapter P) : Write → World P → World P
  | .sharing write, w => { w with sharing := Sharing.exec A write w.sharing }
  | .files write, w =>
    let t := Resources.exec write w.files
    ⟨{ w.sharing with account := t.account }, t.resources, t.transfers, t.printJobs⟩

/-- A request to the services of resources, files and printing. -/
abbrev FilesRequest := {q : Resources.Request // q.OfFiles}

/-- A request to the control plane. -/
inductive Request where
  | sharing (q : Sharing.Request)
  | files (q : FilesRequest)

/-- What a request is answered. -/
inductive Response where
  | sharing (r : Sharing.Response)
  | files (r : Resources.Response)

/-- A call of a service. -/
abbrev Service (P α : Type) := Prog (World P) Write HttpException α

/-- What each request runs. -/
def handler (D : Sharing.Deployment P) (F : Account.Platform) : Request → Service P Response
  | .sharing q => .sharing <$> (Sharing.handler D F q).lift World.sharing .sharing
  | .files q => .files <$> (Resources.handler F.hashSecret q.1).lift World.files .files

/-- What happens between two statements, but for what happens to step-up codes. -/
abbrev SharingOutside (P : Type) := {o : Sharing.Outside P // match o with
  | .account ⟨.stepUps _, _⟩ => False
  | _ => True}

/-- What happens between two statements. -/
inductive Outside (P : Type) where
  | sharing (o : SharingOutside P)
  /-- `issue`, first: what is free of the user's codes for the purpose is used up. -/
  | supersede (userId purpose : String) (now : Date)
  /-- `issue`, then: a new code. -/
  | issue (row : ChallengeRow)
  /-- `resend`: a code is sent again. -/
  | resend (id codeHash : String) (expiresAt : Date)

/-- The codes after it. -/
def Outside.onCodes : Outside P → List ChallengeRow → List ChallengeRow
  | .sharing _ => id
  | .supersede userId purpose now => (Op.update (fun c => c.userId = userId ∧ c.purpose = purpose ∧
      c.consumedAt = none) fun c => { c with consumedAt := some now }).apply
  | .issue row => (Op.insert (fun c => c.id = row.id) row).apply
  | .resend id codeHash expiresAt => (Op.update (·.id = id) fun c =>
      { c with codeHash := codeHash, expiresAt := expiresAt, attempts := 0 }).apply

/-- The world with other codes. -/
def World.withCodes (codes : List ChallengeRow) (w : World P) : World P :=
  { w with sharing := { w.sharing with account := { w.sharing.account with
      api := { w.sharing.account.api with challenges := codes } } } }

/-- The world after it. -/
def outside : Outside P → World P → World P
  | .sharing o, w => { w with sharing := Sharing.outside o.1 w.sharing }
  | o, w => w.withCodes (o.onCodes w.codes)

/-- Any number of requests, statement by statement. -/
def machine (D : Sharing.Deployment P) (F : Account.Platform) :
    Machine (World P) Write HttpException Request (Outside P) Response :=
  ⟨handler D F, exec D.provider, outside⟩

/-- The control plane after a run. -/
abbrev run (D : Sharing.Deployment P) (F : Account.Platform) (w : World P) (moves : List (Move Request (Outside P))) :
    Config (World P) Write HttpException Request Response :=
  Run.run (machine D F).step moves (Config.initial w)

/-- The log of such a run. -/
abbrev ControlLog (P : Type) := Log (World P) Write Request

/-- A statement of such a run. -/
abbrev ControlStep (P : Type) := Step (World P) Write Request

/-! ## Step-up codes -/

/-- The statement keeps the step-up codes. -/
def Write.KeepsCodes : Write → Prop
  | .sharing (.account w) => w.KeepsCodes
  | .files (.account w) => w.KeepsCodes
  | _ => True

/-- The statement has nothing to do with step-up codes. -/
def Write.NoCodes : Write → Prop
  | .sharing (.account (.api (.challenges _))) => False
  | .files (.account (.api (.challenges _))) => False
  | _ => True

/-- What happens to the table of codes when they are kept. -/
structure CodesKept (codes codes' : List ChallengeRow) : Prop where
  evolves : Evolves CodeStays codes codes'
  ids : codes'.map (·.id) = codes.map (·.id)

theorem CodesKept.refl (codes : List ChallengeRow) : CodesKept codes codes :=
  ⟨Evolves.refl CodeStays.refl codes, rfl⟩

theorem codesKept_update {sel : ChallengeRow → Bool} {data : ChallengeRow → ChallengeRow} (codes : List ChallengeRow)
    (h : ∀ c, CodeStays c (data c)) : CodesKept codes ((Op.update sel data).apply codes) :=
  ⟨Table.evolves_update CodeStays.refl fun c _ _ => h c, Table.map_update fun c => (h c).id_eq⟩

theorem codesKept_api {w : Api.Write} (h : w.KeepsCodes) (s : Api.World) :
    CodesKept s.challenges (Api.exec w s).challenges := by
  cases w with
  | challenges op => cases op with
    | update sel data => exact codesKept_update _ h
    | _ => exact h.elim
  | _ => exact .refl _

theorem codesKept_account {w : Account.Write} (h : w.KeepsCodes) (s : Account.World) :
    CodesKept s.api.challenges (Account.exec w s).api.challenges := by
  by_cases hapi : ∃ w', w = .api w'
  · obtain ⟨w', rfl⟩ := hapi
    exact codesKept_api h s.api
  · rw [Account.api_exec (fun w' hw => hapi ⟨w', hw⟩) s]
    exact .refl _

theorem codesKept_exec {A : Sharing.DataProviderAdapter P} {w : Write} (h : w.KeepsCodes) (s : World P) :
    CodesKept s.codes (exec A w s).codes := by
  cases w with
  | sharing w => cases w with
    | account w => exact codesKept_account h s.account
    | createSpace space owner =>
      simp only [exec, Sharing.exec]
      split <;> exact .refl _
    | updateTotals id data =>
      simp only [exec, Sharing.exec]
      split <;> exact .refl _
    | _ => exact .refl _
  | files w => cases w with
    | account w => exact codesKept_account h s.account
    | upsertResource create update =>
      simp only [exec, Resources.exec]
      split
      · exact .refl _
      · split <;> exact .refl _
    | _ => exact .refl _

/-- A statement that has nothing to do with codes leaves them as they are. -/
theorem codes_exec {A : Sharing.DataProviderAdapter P} {w : Write} (h : w.NoCodes) (s : World P) :
    (exec A w s).codes = s.codes := by
  have hapi : ∀ w : Api.Write, (∀ op, w ≠ .challenges op) → ∀ s : Api.World, (Api.exec w s).challenges = s.challenges := by
    intro w hw s
    cases w with
    | challenges op => exact absurd rfl (hw op)
    | _ => rfl
  have haccount : ∀ w : Account.Write, (∀ op, w ≠ .api (.challenges op)) →
      (Account.exec w s.account).api.challenges = s.codes := by
    intro w hw
    by_cases hop : ∃ w', w = .api w'
    · obtain ⟨w', rfl⟩ := hop
      exact hapi w' (fun op heq => hw op (by rw [heq])) s.account.api
    · rw [Account.api_exec (fun w' hw' => hop ⟨w', hw'⟩) s.account]
      rfl
  cases w with
  | sharing w => cases w with
    | account w =>
      refine haccount w ?_
      rintro op rfl
      exact h
    | createSpace space owner =>
      simp only [exec, Sharing.exec]
      split <;> rfl
    | updateTotals id data =>
      simp only [exec, Sharing.exec]
      split <;> rfl
    | _ => rfl
  | files w => cases w with
    | account w =>
      refine haccount w ?_
      rintro op rfl
      exact h
    | upsertResource create update =>
      simp only [exec, Resources.exec]
      split
      · rfl
      · split <;> rfl
    | _ => rfl

/-- What happens outside inserts codes with new identifiers only. -/
theorem codes_outside (e : Outside P) (s : World P) (hs : (s.codes.map (·.id)).Nodup) :
    Evolves CodeStays s.codes (outside e s).codes ∧ ((outside e s).codes.map (·.id)).Nodup := by
  have hkept : ∀ {codes : List ChallengeRow}, CodesKept s.codes codes →
      Evolves CodeStays s.codes codes ∧ (codes.map (·.id)).Nodup := fun h => ⟨h.evolves, h.ids ▸ hs⟩
  cases e with
  | sharing o =>
    obtain ⟨o, ho⟩ := o
    refine hkept ?_
    cases o with
    | account a =>
      obtain ⟨a, ha⟩ := a
      cases a with
      | stepUps rows => exact ho.elim
      | issueCode row =>
        simp only [outside, Sharing.outside, Account.outside]
        split <;> exact .refl _
      | _ => exact .refl _
    | provider p => exact .refl _
    | refusesTotals refuses => exact .refl _
  | supersede userId purpose now =>
    exact hkept (codesKept_update _ fun c => ⟨rfl, rfl, rfl, fun _ => rfl⟩)
  | issue row => exact ⟨Table.evolves_insert CodeStays.refl, Table.nodup_insert (fun c hc => by simp [hc]) hs⟩
  | resend id codeHash expiresAt => exact hkept (codesKept_update _ fun c => ⟨rfl, rfl, rfl, fun h => h⟩)

/-! ## The programs -/

section Programs

variable {D : Sharing.Deployment P} {F : Account.Platform}

/-- A request to the services of Spaces and data has nothing to do with step-up codes. -/
theorem noCodes_does {q : Sharing.Request} {w : Sharing.Write} (h : Sharing.Does q w)
    (hq : ∀ q', q ≠ .account q') : (Write.sharing w).NoCodes := by
  cases h with
  | notes _ hnoted =>
    rename_i w
    cases w with
    | api w => cases w with
      | challenges op => exact hnoted.elim
      | _ => trivial
    | _ => trivial
  | serves q' => exact absurd rfl (hq q')
  | _ => trivial

/-- The requests that have nothing to do with step-up codes. -/
theorem noCodes_handler (q : Request) (hq : ∀ q', q ≠ .sharing (.account q')) :
    (handler D F q).Only Write.NoCodes := by
  cases q with
  | sharing q =>
    refine Prog.Only.map ((Sharing.only_handler D F q).lift fun w hw => noCodes_does hw ?_) _
    rintro q' rfl
    exact hq q' rfl
  | files q =>
    refine Prog.Only.map ((Resources.effect_handler q.1 q.2).lift fun w hw => ?_) _
    cases w with
    | account w => cases w with
      | api w => cases w with
        | challenges op => exact hw
        | _ => trivial
      | _ => trivial
    | _ => trivial

theorem Write.NoCodes.keepsCodes {w : Write} (h : w.NoCodes) : w.KeepsCodes := by
  cases w with
  | sharing w => cases w with
    | account w => cases w with
      | api w => cases w with
        | challenges op => exact h.elim
        | _ => trivial
      | _ => trivial
    | _ => trivial
  | files w => cases w with
    | account w => cases w with
      | api w => cases w with
        | challenges op => exact h.elim
        | _ => trivial
      | _ => trivial
    | _ => trivial

/-- **Every request** keeps the codes. -/
theorem keepsCodes_handler (q : Request) : (handler D F q).Only Write.KeepsCodes := by
  by_cases hq : ∃ q', q = .sharing (.account q')
  · obtain ⟨q', rfl⟩ := hq
    have haccount := (Account.effect_handler (P := F) q').mono fun _ hw => hw.keepsCodes
    have hlift : (Sharing.lift (P := P) (Account.handler F q')).Only fun w => (Write.sharing w).KeepsCodes :=
      haccount.lift fun _ hw => hw
    have hsharing : (Sharing.handler D F (.account q')).Only fun w => (Write.sharing w).KeepsCodes := hlift.map _
    exact (hsharing.lift fun _ hw => hw).map _
  · exact (noCodes_handler q fun q' heq => hq ⟨q', heq⟩).mono fun _ hw => hw.keepsCodes

end Programs

/-- **Codes are kept** by every run. -/
theorem kept_codes (D : Sharing.Deployment P) (F : Account.Platform) :
    Kept (machine D F) (fun step : ControlStep P => step.write.KeepsCodes)
      (fun s => (s.codes.map (·.id)).Nodup) fun s t => Evolves CodeStays s.codes t.codes where
  refl s := Evolves.refl CodeStays.refl s.codes
  trans h h' := h.trans CodeStays.trans h'
  step step h hs := by
    obtain ⟨hevolves, hids⟩ := codesKept_exec (A := D.provider) h step.before
    exact ⟨hevolves, hids.symm ▸ hs⟩
  env e s hs := codes_outside e s hs

end ControlPlane

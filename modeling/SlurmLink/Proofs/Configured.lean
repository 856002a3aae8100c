import SlurmLink.Proofs.Backoff
import SlurmLink.Proofs.ChangeLog
import SlurmLink.Proofs.Gate
import SlurmLink.Proofs.Reading
import SlurmLink.Proofs.Renewal

/-!
A configuration that passed its check raises no error of configuration later. Such errors come from an
endpoint that is no address of the web, or from having no versions at all; the first is excluded by the
check, the second by the versions that are compiled in. The endpoint is handed on unchanged:

    configuration ──▶ acquisition ──▶ negotiation ──▶ session ──▶ errand, watch, renewal
                                                        │  ▲
                                                        ▼  │
                                                        table

`Sound` says for each of these that its endpoints are addresses of the web and that what it came to is
`Blameless`. Every step keeps it, and so does every event at a client whose commands are held to sessions
that the client has had (`Traffic.Own`).
-/

namespace SlurmLink

/-- An endpoint that is an address of the web. -/
def OnWeb (endpoint : String) : Prop := ∃ u, Url.read endpoint = .ok (.web u)

/-- An error that does not blame the configuration. -/
def Error.Blameless (e : Error) : Prop := ∀ c, e ≠ .config c

/-! ### Versions -/

theorem blameless_of_selectVersion {release : ProductVersion} {candidates : List ApiVersion}
    {e : Error} (h : selectVersion release candidates Revision.versions = .error e) :
    e.Blameless := by
  have hhead : Revision.versions.head? = some Revision.v40.apiVersion := rfl
  rw [selectVersion] at h
  split at h
  · cases h
  · rw [hhead] at h
    -- there is always a nearest version, since versions are compiled in
    cases hn : candidates.getLast?.bind fun newest =>
        Revision.versions.reverse.find? (fun v => v ≤ newest) with
    | none => rw [hn] at h; cases h; intro _ hc; cases hc
    | some v => rw [hn] at h; cases h; intro _ hc; cases hc

theorem blameless_of_explicitRevision {v : ApiVersion} {e : Error}
    (h : explicitRevision v = .error e) : e.Blameless := by
  rw [explicitRevision] at h
  split at h
  · cases h
  · cases h; intro _ hc; cases hc

theorem blameless_of_chooseRevision {m : Matrix} {release : ProductVersion} {e : Error}
    (h : chooseRevision m release = .error e) : e.Blameless := by
  rw [chooseRevision] at h
  split at h
  · cases h; intro _ hc; cases hc
  · split at h
    · next hs => cases h; exact blameless_of_selectVersion hs
    · exact blameless_of_explicitRevision h

theorem Discovery.blameless_of_conclude {endpoint : String} {outcome : Except Failure Response}
    {e : Error} (h : conclude endpoint outcome = .error e) : e.Blameless := by
  cases outcome with
  | error f => cases h; intro _ hc; cases hc
  | ok r =>
    rw [conclude, release] at h
    split at h
    · cases h; intro _ hc; cases hc
    · split at h
      · cases h; intro _ hc; cases hc
      · split at h
        · cases h
        · cases h; intro _ hc; cases hc

theorem Negotiation.blameless_of_choose {p : SessionPolicy} {endpoint : String}
    {outcome : Except Failure Response} {e : Error} (h : choose p endpoint outcome = .error e) :
    e.Blameless := by
  rw [choose] at h
  split at h
  · next hc => cases h; exact Discovery.blameless_of_conclude hc
  · split at h
    · next hc => cases h; exact blameless_of_chooseRevision hc
    · cases h

/-! ### Requests -/

section Requests

variable {s : Session} {c : Command}

/-- Whatever is to be added to the path of an address of the web, it can be. -/
theorem Session.exists_url (h : OnWeb s.endpoint) (plugin : Plugin) (path : List String) :
    ∃ url, s.url plugin path = .ok url := by
  obtain ⟨u, hu⟩ := h
  exact ⟨_, by rw [url, hu]⟩

theorem Session.exists_request (h : OnWeb s.endpoint) (d : Draft) : ∃ r, s.request d = .ok r := by
  obtain ⟨url, hurl⟩ := exists_url h d.plugin d.path
  exact ⟨_, by rw [request, hurl]; rfl⟩

/-- A command that passes the gate can be made into a request, if it makes one. -/
theorem Command.exists_prepare (h : OnWeb s.endpoint) (hp : c.Passes s) :
    ∃ r, c.prepare s = .ok r := by
  rw [prepare_supported hp.supported]
  rcases checksTo_draft s.revision c with ⟨r, hc, -⟩ | ⟨-, d, hd⟩
  · rw [hp.checked] at hc; cases hc
  · rw [hd]
    cases d with
    | none => exact ⟨none, rfl⟩
    | some d =>
      obtain ⟨r, hr⟩ := Session.exists_request h d
      exact ⟨some r, by simp only [hr]; rfl⟩

theorem Command.blameless_of_prepare (h : OnWeb s.endpoint) {e : Error}
    (hp : c.prepare s = .error e) : e.Blameless := by
  cases hs : s.revision.supports c.operation with
  | false => rw [prepare_unsupported hs] at hp; cases hp; nofun
  | true =>
    rw [prepare_supported hs] at hp
    split at hp
    · cases hp; nofun
    · cases hp
    · next d hd =>
      obtain ⟨r, hr⟩ := Session.exists_request h d
      rw [hr] at hp
      cases hp

theorem Command.blameless_of_conclude {outcome : Except Failure Response} {e : Error}
    (h : c.conclude s outcome = .error e) : e.Blameless := by
  cases outcome with
  | error f => cases h; nofun
  | ok r =>
    rw [conclude] at h
    cases hr : c.read s.apiVersion r.body with
    | ok answer => rw [hr] at h; cases h
    | error f => rw [hr] at h; cases h; nofun

end Requests

/-! ### Negotiations and the table -/

/-- An outcome that is a session at an address of the web, or does not blame the configuration. -/
def SoundOutcome : Except Error Session → Prop
  | .ok s => OnWeb s.endpoint
  | .error e => e.Blameless

namespace Negotiation

structure Sound (n : Negotiation) : Prop where
  base : OnWeb n.endpoint
  outcome : ∀ o, n.outcome? = some o → SoundOutcome o

variable {p : SessionPolicy} {n n' : Negotiation} {l l' : Link}

theorem Sound.conclude (h : n.Sound) {choice : Except Error (Revision × Option ProductVersion)}
    (hc : ∀ e, choice = .error e → e.Blameless) (l : Link) : (n.conclude choice l).1.Sound := by
  cases choice with
  | error e =>
    refine ⟨h.base, fun o ho => ?_⟩
    cases ho
    exact hc e rfl
  | ok choice =>
    refine ⟨h.base, fun o ho => ?_⟩
    cases ho
    exact h.base

theorem Sound.goes (h : n.Sound) (hg : Goes p n l n' l') : n'.Sound := by
  cases hg with
  | @named v hp he =>
    refine h.conclude (fun e hc => ?_) l
    cases hr : explicitRevision v with
    | ok r => rw [hr] at hc; cases hc
    | error f => rw [hr] at hc; cases hc; exact blameless_of_explicitRevision hr
  | asks hp he => exact ⟨h.base, fun o ho => (by cases ho)⟩
  | calls hp hc => exact ⟨h.base, fun o ho => (by cases ho)⟩
  | chooses hp ho => exact h.conclude (fun e hc => blameless_of_choose hc) l

end Negotiation

namespace SessionTable

variable {t : SessionTable}

/-- All sessions in a table are at addresses of the web. -/
def Sound (t : SessionTable) : Prop := ∀ x ∈ t.cells, ∀ s, x.session = some s → OnWeb s.endpoint

theorem Sound.cell (h : t.Sound) {c : Nat} {s : Session} (hs : (t.cell c).session = some s) :
    OnWeb s.endpoint := by
  rw [SessionTable.cell] at hs
  cases hx : t.cells[c]? with
  | none => rw [hx] at hs; cases hs
  | some x => rw [hx] at hs; exact h x (List.mem_of_getElem? hx) s hs

theorem Sound.renew (h : t.Sound) (endpoint : String) : (t.renew endpoint).2.Sound := by
  intro x hx s hs
  rcases List.mem_append.mp hx with hx | hx
  · exact h x hx s hs
  · rw [List.mem_singleton.mp hx] at hs
    cases hs

theorem Sound.obtain (h : t.Sound) (endpoint : String) : (t.obtain endpoint).2.Sound := by
  rw [SessionTable.obtain]
  split
  · exact h
  · exact h.renew endpoint

theorem Sound.replace (h : t.Sound) (stale : Session) : (t.replace stale).2.Sound := by
  rw [SessionTable.replace]
  split
  · split
    · exact h.renew _
    · exact h.obtain _
  · exact h.obtain _

theorem Sound.cellOf (h : t.Sound) (wish : SessionWish) : (Acquisition.cellOf wish t).2.Sound := by
  cases wish with
  | any endpoint => exact h.obtain endpoint
  | other stale => exact h.replace stale

theorem Sound.modify (h : t.Sound) (c : Nat) {f : SessionCell → SessionCell}
    (hf : ∀ x s, (f x).session = some s → x.session = some s ∨ OnWeb s.endpoint) :
    (t.modify c f).Sound := by
  intro x hx s hs
  obtain ⟨j, hj⟩ := List.mem_iff_getElem?.mp hx
  simp only [SessionTable.modify, List.getElem?_modify] at hj
  obtain ⟨y, hy, he⟩ := Option.map_eq_some_iff.mp hj
  have hmem := h y (List.mem_of_getElem? hy)
  split at he
  · rw [← he] at hs
    exact (hf y s hs).elim (hmem s) id
  · rw [← he] at hs
    exact hmem s hs

end SessionTable

namespace Acquisition

structure Sound (a : Acquisition) : Prop where
  base : OnWeb a.wish.endpoint
  negotiation : ∀ cell ticket n, a.phase = .negotiating cell ticket n → n.Sound
  outcome : ∀ o, a.outcome? = some o → SoundOutcome o

variable {p : SessionPolicy} {a a' : Acquisition} {h h' : Hub}

theorem sound_new (context : Context) {wish : SessionWish} (hw : OnWeb wish.endpoint) :
    Sound { context, wish } :=
  ⟨hw, fun _ _ _ hp => (by cases hp), fun _ ho => (by cases ho)⟩

theorem Sound.finish (hs : a.Sound) {o : Except Error Session} (ho : SoundOutcome o) :
    Sound { a with phase := .finished o } :=
  ⟨hs.base, fun _ _ _ hp => (by cases hp), fun _ ho' => (by cases ho'; exact ho)⟩

theorem Sound.goes (hs : a.Sound) (ht : h.table.Sound) (hg : Goes p a h a' h') :
    a'.Sound ∧ h'.table.Sound := by
  cases hg with
  | finds hp hc hsession =>
    have htable := ht.cellOf a.wish
    rw [hc] at htable
    exact ⟨hs.finish (htable.cell hsession), htable⟩
  | linesUp hp hc hsession =>
    have htable := ht.cellOf a.wish
    rw [hc] at htable
    exact ⟨⟨hs.base, fun _ _ _ hp' => (by cases hp'), fun _ ho => (by cases ho)⟩,
      htable.modify _ fun _ _ hx => Or.inl hx⟩
  | takes hp hsession => exact ⟨hs.finish (ht.cell hsession), ht⟩
  | begins hp hsession hl =>
    refine ⟨⟨hs.base, fun _ _ n hp' => ?_, fun _ ho => (by cases ho)⟩, ht⟩
    cases hp'
    exact ⟨hs.base, fun _ ho => (by cases ho)⟩
  | negotiates hp hn =>
    refine ⟨⟨hs.base, fun _ _ n hp' => ?_, fun _ ho => (by cases ho)⟩, ht⟩
    cases hp'
    exact (hs.negotiation _ _ _ hp).goes (Negotiation.goes_of_step hn)
  | fills hp ho =>
    have hsound := (hs.negotiation _ _ _ hp).outcome _ ho
    refine ⟨hs.finish hsound, ht.modify _ fun _ s hx => ?_⟩
    cases hx
    exact Or.inr hsound
  | fails hp ho =>
    exact ⟨hs.finish ((hs.negotiation _ _ _ hp).outcome _ ho), ht.modify _ fun _ _ hx => Or.inl hx⟩

end Acquisition

/-! ### Clients -/

structure Client.Sound (c : Client) : Prop where
  table : c.hub.table.Sound
  current : OnWeb c.current.endpoint

namespace Renewal

structure Sound (r : Renewal) : Prop where
  acquisition : ∀ a, r.phase = .acquiring a → a.Sound
  outcome : ∀ e, r.phase = .finished (.error e) → e.Blameless

variable {p : SessionPolicy} {r r' : Renewal} {c c' : Client}

theorem sound_new (context : Context) : Sound { context } :=
  ⟨fun _ hp => (by cases hp), fun _ hp => (by cases hp)⟩

theorem Sound.goes (h : r.Sound) (hc : c.Sound) (hg : Goes p r c r' c') : r'.Sound ∧ c'.Sound := by
  cases hg with
  | starts hp =>
    refine ⟨⟨fun a ha => ?_, fun _ hp' => (by cases hp')⟩, hc⟩
    cases ha
    exact Acquisition.sound_new _ hc.current
  | acquires hp hs =>
    obtain ⟨hsound, htable⟩ := (h.acquisition _ hp).goes hc.table (Acquisition.goes_of_step hs)
    exact ⟨⟨fun a ha => (by cases ha; exact hsound), fun _ hp' => (by cases hp')⟩,
      ⟨htable, hc.current⟩⟩
  | returns hp ho =>
    exact ⟨⟨fun a ha => (by cases ha), fun _ hp' => (by cases hp')⟩,
      ⟨hc.table, (h.acquisition _ hp).outcome _ ho⟩⟩
  | fails hp ho =>
    have hsound := (h.acquisition _ hp).outcome _ ho
    exact ⟨⟨fun a ha => (by cases ha), fun _ hp' => (by cases hp'; exact hsound)⟩, hc⟩

end Renewal

namespace Errand

structure Sound (e : Errand) : Prop where
  base : OnWeb e.session.endpoint
  outcome : ∀ f, e.outcome? = some (.error f) → f.Blameless

variable {p : CallPolicy} {e e' : Errand} {l l' : Link}

theorem sound_new (context : Context) {session : Session} (command : Command)
    (h : OnWeb session.endpoint) : Sound { context, session, command } :=
  ⟨h, fun _ ho => (by cases ho)⟩

theorem Sound.goes (h : e.Sound) (hg : Goes p e l e' l') : e'.Sound := by
  cases hg with
  | starts hp =>
    refine ⟨h.base, fun f hf => ?_⟩
    rw [outcome?, start] at hf
    cases hq : e.command.prepare e.session with
    | ok request =>
      rw [hq] at hf
      cases request <;> cases hf
    | error g =>
      rw [hq] at hf
      cases hf
      exact Command.blameless_of_prepare h.base hq
  | calls hp hc => exact ⟨h.base, fun f hf => (by cases hf)⟩
  | reads hp ho =>
    exact ⟨h.base, fun f hf => Command.blameless_of_conclude (Option.some.inj hf)⟩

end Errand

/-! ### Watches -/

/-- A listing tells of items, and never of a failure. -/
theorem WatchEvent.failed_not_mem_ofListing {α : Type} (key state : α → String) (baseline : Bool)
    (known : Known) (items : List α) (e : Error) :
    .failed e ∉ (ofListing key state baseline known items).1 := by
  have hitems : ∀ (items : List α) (known : Known),
      .failed e ∉ (ofItems key state baseline known items).1 := by
    intro items
    induction items with
    | nil => exact fun _ => List.not_mem_nil
    | cons item items ih =>
      intro known hmem
      rw [ofItems] at hmem
      rcases List.mem_append.mp hmem with hmem | hmem
      · rw [Option.mem_toList, ofItem] at hmem
        split at hmem <;> split at hmem <;> cases hmem
      · exact ih _ hmem
  intro hmem
  rcases List.mem_append.mp hmem with hmem | hmem
  · exact hitems items known hmem
  · obtain ⟨_, _, he⟩ := List.mem_map.mp hmem
    cases he

namespace Watch

variable {α : Type} {p : CallPolicy} {w w' : Watch α} {l l' : Link}

structure Sound (w : Watch α) : Prop where
  base : OnWeb w.session.endpoint
  listing : ∀ errand, w.phase = .listing errand → errand.Sound
  told : ∀ e, .failed e ∈ w.pending ++ w.buffer → e.Blameless

theorem Sound.stop (h : w.Sound) : Sound { w with phase := .stopped } :=
  ⟨h.base, fun _ hp => (by cases hp), fun e he => h.told e (List.mem_append_right _ he)⟩

theorem Sound.note (h : w.Sound) {outcome : Except Error Answer}
    (ho : ∀ f, outcome = .error f → f.Blameless) : (w.note outcome).Sound := by
  have hbuffer : ∀ e, .failed e ∈ w.buffer → e.Blameless := fun e he =>
    h.told e (List.mem_append_right _ he)
  cases outcome with
  | ok answer =>
    rw [note_ok]
    refine ⟨h.base, fun _ hp => (by cases hp), fun e he => ?_⟩
    rcases List.mem_append.mp he with he | he
    · exact absurd he (WatchEvent.failed_not_mem_ofListing _ _ _ _ _ e)
    · exact hbuffer e he
  | error f =>
    by_cases hk : f.kind = .cancelled
    · rw [note_cancelled hk]
      exact h.stop
    · rw [note_failed hk]
      refine ⟨h.base, fun _ hp => (by cases hp), fun e he => ?_⟩
      rcases List.mem_append.mp he with he | he
      · cases List.mem_singleton.mp he
        exact ho f rfl
      · exact hbuffer e he

theorem Sound.goes (h : w.Sound) (hg : Goes p w l w' l') : w'.Sound := by
  have hbuffer : ∀ e, .failed e ∈ w.buffer → e.Blameless := fun e he =>
    h.told e (List.mem_append_right _ he)
  cases hg with
  | stops hs => exact h.stop
  | lists hp ho hc =>
    exact ⟨h.base, fun _ hp' => (by cases hp'; exact (h.listing _ hp).goes hc), hbuffer⟩
  | notes hp hs ho =>
    refine h.note fun f hf => (h.listing _ hp).outcome f ?_
    rw [ho, hf]
  | delivers hp hroom =>
    refine ⟨h.base, fun _ hp' => (by cases hp'), fun e he => h.told e ?_⟩
    rw [pending, hp]
    simp only [pending, List.mem_append, List.mem_cons, List.not_mem_nil, or_false] at he ⊢
    rcases he with he | he | he
    · exact Or.inl (Or.inr he)
    · exact Or.inr he
    · exact Or.inl (Or.inl he)
  | rests hp => exact ⟨h.base, fun _ hp' => (by cases hp'), hbuffer⟩
  | polls hp =>
    exact ⟨h.base, fun _ hp' => (by cases hp'; exact Errand.sound_new _ _ h.base), hbuffer⟩

theorem sound_start {c : Context} {session : Session} {subject : Subject α}
    {settings : WatchSettings} (hs : OnWeb session.endpoint)
    (h : start c session subject settings l = .ok (w, l')) : w.Sound := by
  rw [start] at h
  split at h
  · cases h
  · cases h
    exact ⟨hs, fun _ hp => (by cases hp; exact Errand.sound_new _ _ hs), fun e he => (by cases he)⟩

theorem Sound.receive (h : w.Sound) : ((w.receive.map Prod.snd).getD w).Sound := by
  rw [Watch.receive]
  cases hb : w.buffer with
  | nil => exact h
  | cons e rest =>
    refine ⟨h.base, h.listing, fun f hf => h.told f ?_⟩
    rw [hb]
    rcases List.mem_append.mp hf with hf | hf
    · exact List.mem_append_left _ hf
    · exact List.mem_append_right _ (List.mem_cons_of_mem _ hf)

theorem Sound.close (h : w.Sound) : w.close.Sound :=
  ⟨h.base, h.listing, fun e he => h.told e (List.mem_append_left _
    ((List.mem_append.mp he).resolve_right List.not_mem_nil))⟩

end Watch

/-! ### Activities and traffic -/

namespace Activity

/-- The errors that an activity has come to, or has ready to be received. -/
def Reports (x : Activity) (e : Error) : Prop :=
  match x with
  | .connecting a => a.outcome? = some (.error e)
  | .task (.command ..) => False
  | .task (.errand k) => k.outcome? = some (.error e)
  | .task (.renewal r) => r.phase = .finished (.error e)
  | .watch w => .failed e ∈ w.buffer

def Sound : Activity → Prop
  | .connecting a => a.Sound
  | .task (.command _ held _) => ∀ s, held = some s → OnWeb s.endpoint
  | .task (.errand e) => e.Sound
  | .task (.renewal r) => r.Sound
  | .watch w => w.Sound

variable {setup : ClientSetup} {x x' : Activity} {c c' : Client}

theorem Sound.step (h : x.Sound) (hc : c.Sound) (hs : x.step setup c = some (x', c')) :
    x'.Sound ∧ c'.Sound := by
  cases x with
  | connecting a =>
    obtain ⟨r, hr, he⟩ := Option.map_eq_some_iff.mp hs
    cases he
    obtain ⟨hsound, htable⟩ := Acquisition.Sound.goes h hc.table (Acquisition.goes_of_step hr)
    exact ⟨hsound, htable, hc.current⟩
  | watch w =>
    obtain ⟨r, hr, he⟩ := Option.map_eq_some_iff.mp hs
    cases he
    exact ⟨Watch.Sound.goes h (Watch.goes_of_step hr), hc.table, hc.current⟩
  | task t =>
    obtain ⟨r, hr, he⟩ := Option.map_eq_some_iff.mp hs
    cases he
    cases t with
    | command context held order =>
      cases hr
      refine ⟨Errand.sound_new _ _ ?_, hc⟩
      cases held with
      | none => exact hc.current
      | some s => exact h s rfl
    | errand e =>
      obtain ⟨y, hy, he⟩ := Option.map_eq_some_iff.mp hr
      cases he
      exact ⟨Errand.Sound.goes h (Errand.goes_of_step hy), hc.table, hc.current⟩
    | renewal r =>
      obtain ⟨y, hy, he⟩ := Option.map_eq_some_iff.mp hr
      cases he
      exact Renewal.Sound.goes h hc (Renewal.goes_of_step hy)

theorem Sound.blameless (h : x.Sound) {e : Error} (hr : x.Reports e) : e.Blameless := by
  cases x with
  | connecting a => exact Acquisition.Sound.outcome h _ hr
  | watch w => exact Watch.Sound.told h e (List.mem_append_right _ hr)
  | task t =>
    cases t with
    | command context held order => exact absurd hr id
    | errand k => exact Errand.Sound.outcome h e hr
    | renewal r => exact Renewal.Sound.outcome h e hr

end Activity

/-- The sessions that an event holds something to. -/
def TrafficEvent.sessions : TrafficEvent → List Session
  | .order _ held _ => held.toList
  | .watch _ session _ _ => [session]
  | _ => []

namespace Traffic

variable {setup : ClientSetup} {t : Traffic}

/-- Commands and watches are held to no other sessions than those that the client has had. -/
def Own (setup : ClientSetup) : List Session → Traffic → List TrafficEvent → Prop
  | _, _, [] => True
  | had, t, e :: events => (∀ s ∈ e.sessions, s ∈ t.client.current :: had) ∧
      Own setup (t.client.current :: had) (t.step setup e) events

structure Sound (t : Traffic) : Prop where
  client : t.client.Sound
  activities : ∀ x ∈ t.activities, x.Sound

theorem Sound.join (h : t.Sound) {x : Activity} (hx : x.Sound) : (t.join x).Sound := by
  refine ⟨h.client, fun y hy => ?_⟩
  rcases List.mem_append.mp hy with hy | hy
  · exact h.activities y hy
  · rw [List.mem_singleton.mp hy]; exact hx

theorem Sound.modify (h : t.Sound) {f : Activity → Activity} (hf : ∀ x, x.Sound → (f x).Sound)
    (i : Nat) : Sound { t with activities := t.activities.modify i f } := by
  refine ⟨h.client, fun x hx => ?_⟩
  obtain ⟨j, hj⟩ := List.mem_iff_getElem?.mp hx
  simp only [List.getElem?_modify] at hj
  obtain ⟨y, hy, he⟩ := Option.map_eq_some_iff.mp hj
  have hsound := h.activities y (List.mem_of_getElem? hy)
  rw [← he]
  split
  · exact hf y hsound
  · exact hsound

theorem Sound.step (h : t.Sound) {e : TrafficEvent} (he : ∀ s ∈ e.sessions, OnWeb s.endpoint)
    (hbase : OnWeb setup.config.endpoint) : (t.step setup e).Sound := by
  cases e with
  | connect context => exact h.join (Acquisition.sound_new context hbase)
  | order context held command =>
    refine h.join fun s hs => he s ?_
    rw [hs]
    exact List.mem_singleton.mpr rfl
  | renew context => exact h.join (Renewal.sound_new context)
  | watch context session subject settings =>
    rw [Traffic.step]
    cases hw : Watch.start context session subject settings t.link with
    | error f => exact h
    | ok r =>
      obtain ⟨w, l⟩ := r
      have hsound : Sound { t with client := HasLink.onLink (fun _ => l) t.client } :=
        ⟨⟨h.client.table, h.client.current⟩, h.activities⟩
      exact hsound.join (Watch.sound_start (he session (List.mem_singleton.mpr rfl)) hw)
  | advance holder =>
    rw [Traffic.step]
    cases hx : t.activities[holder]? with
    | none => exact h
    | some x =>
      cases hs : x.step setup t.client with
      | none => simpa only [hs] using h
      | some r =>
        simp only [hs]
        obtain ⟨hsound, hclient⟩ := (h.activities x (List.mem_of_getElem? hx)).step h.client hs
        refine ⟨hclient, fun y hy => ?_⟩
        rcases List.mem_or_eq_of_mem_set hy with hy | rfl
        · exact h.activities y hy
        · exact hsound
  | receive holder =>
    refine h.modify (fun x hx => ?_) holder
    cases x with
    | watch w => exact Watch.Sound.receive hx
    | _ => exact hx
  | hangUp holder =>
    refine h.modify (fun x hx => ?_) holder
    cases x with
    | watch w => exact Watch.Sound.close hx
    | _ => exact hx
  | outside e => exact ⟨⟨h.client.table, h.client.current⟩, h.activities⟩
  | close => exact ⟨⟨h.client.table, h.client.current⟩, h.activities⟩

theorem Sound.after (hbase : OnWeb setup.config.endpoint) : ∀ {events : List TrafficEvent}
    {had : List Session} {t : Traffic}, t.Sound → (∀ s ∈ had, OnWeb s.endpoint) →
    Own setup had t events → (t.after setup events).Sound
  | [], _, _, h, _, _ => h
  | e :: events, had, t, h, hhad, hown => by
    have hmore : ∀ s ∈ t.client.current :: had, OnWeb s.endpoint := by
      intro s hs
      rcases List.mem_cons.mp hs with rfl | hs
      · exact h.client.current
      · exact hhad s hs
    rw [after_cons]
    exact Sound.after hbase (h.step (fun s hs => hmore s (hown.1 s hs)) hbase) hmore hown.2

end Traffic

/-! ### Connecting -/

/-- A checked configuration has a checked policy of retries. -/
theorem ClientConfig.retry_of_validate {config : ClientConfig} (h : config.validate = .ok ()) :
    config.retry.validate = .ok () := by
  rw [validate] at h
  cases hu : config.validateUrl with
  | error e => rw [hu] at h; cases h
  | ok =>
    rw [hu] at h
    cases hr : config.retry.validate with
    | ok => rfl
    | error e =>
      rw [hr] at h
      by_cases ht : config.timeout.nanos = 0
      · simp only [ht, if_true] at h; cases h
      · simp only [ht, if_false] at h; cases h

theorem ClientSetup.sound_connect {setup : ClientSetup} (hvalid : setup.config.validate = .ok ())
    (fuel : Nat) (context : Context) (link : Link) :
    (∀ o, (setup.connect fuel context { link }).1 = some o → SoundOutcome o) ∧
      (setup.connect fuel context { link }).2.table.Sound := by
  have hbase : OnWeb setup.config.endpoint := ClientConfig.exists_web hvalid
  have hempty : SessionTable.Sound {} := fun _ hx => nomatch hx
  have hrun := Machine.runOne_keeps (m := Acquisition.machine setup.sessionPolicy)
    (P := fun a h => a.Sound ∧ h.table.Sound)
    (fun a a' h h' hs hstep => hs.1.goes hs.2 (Acquisition.goes_of_step hstep))
    (fun a h time hs => hs) fuel (setup.connection context) { link }
    ⟨Acquisition.sound_new context hbase, hempty⟩
  rw [connect, hvalid]
  exact ⟨hrun.1.outcome, hrun.2⟩

namespace Traffic

/-- A client has just connected: it has checked its configuration and got its first session. -/
def Connects (setup : ClientSetup) (client : Client) : Prop :=
  ∃ fuel context link,
    setup.connect fuel context { link } = (some (.ok client.current), client.hub)

theorem Connects.sound {setup : ClientSetup} {client : Client} (h : Connects setup client)
    (hvalid : setup.config.validate = .ok ()) : Sound { client } := by
  obtain ⟨fuel, context, link, hc⟩ := h
  obtain ⟨houtcome, htable⟩ := ClientSetup.sound_connect hvalid fuel context link
  rw [hc] at houtcome htable
  exact ⟨⟨htable, houtcome _ rfl⟩, fun x hx => nomatch hx⟩

/-- A configuration that passed its check does not fail later. Every wait between attempts can be
    computed, whatever the attempt and the factor that chance draws. Connecting does not end with an
    error of configuration, whatever the server does and the context comes to, and choosing a revision
    does not either. Once connected, nothing that is done with the client and the sessions that it has
    had reports one: no command, no renegotiation, no watch when it starts or later; and every address
    below the endpoint can be made. -/
theorem config_never_blamed (setup : ClientSetup) (hvalid : setup.config.validate = .ok ()) :
    (∀ k, (setup.config.retry.delayBounds k).isSome = true ∧
      ∀ factor, (Binary64.one.sub setup.config.retry.jitterFraction).le factor = true →
        factor.le (Binary64.one.add setup.config.retry.jitterFraction) = true →
        (setup.config.retry.delay factor k).isSome = true) ∧
    (∀ fuel context link e, (setup.connect fuel context { link }).1 = some (.error e) →
      e.Blameless) ∧
    (∀ m release e, chooseRevision m release = .error e → e.Blameless) ∧
    ∀ client events, Connects setup client → Own setup [] { client } events →
      let t := after setup { client } events
      (∀ x ∈ t.activities, ∀ e, x.Reports e → e.Blameless) ∧
      (∀ (α : Type) context session (subject : Subject α) settings e,
        Watch.start context session subject settings t.link = .error e → e.Blameless) ∧
      ∀ plugin path, ∃ url, t.client.current.url plugin path = .ok url := by
  have hretry := ClientConfig.retry_of_validate hvalid
  refine ⟨fun k => ⟨RetryPolicy.isSome_delayBounds hretry k, fun factor hlow hhigh =>
    RetryPolicy.isSome_delay hretry k hlow hhigh⟩, fun fuel context link e he => ?_,
    fun m release e he => blameless_of_chooseRevision he, fun client events hc hown => ?_⟩
  · exact (ClientSetup.sound_connect hvalid fuel context link).1 _ he
  · have hsound : Sound (after setup { client } events) :=
      (hc.sound hvalid).after (ClientConfig.exists_web hvalid)
        (fun _ hs => absurd hs List.not_mem_nil) hown
    refine ⟨fun x hx e he => (hsound.activities x hx).blameless he,
      fun α context session subject settings e he => ?_,
      fun plugin path => Session.exists_url hsound.client.current plugin path⟩
    cases hs : session.revision.supports ⟨subject.resource, .watch⟩ with
    | false =>
      rw [Watch.start_unsupported _ context settings hs] at he
      cases he
      nofun
    | true =>
      obtain ⟨w, l, hstart, -⟩ := Watch.exists_start (after setup { client } events).link context
        settings hs
      rw [hstart] at he
      cases he

/-- A command is given under a context that is cancelled while the command is under way. -/
def calledOff : List TrafficEvent :=
  [.outside .newContext, .order ⟨0, none⟩ (some Lobby.sharedSession) (.getNode "c 1"), .advance 0,
    .advance 0, .outside (.cancel ⟨0, none⟩), .advance 0, .advance 0]

theorem connects_openClient : Connects Renewals.openSetup Renewals.openClient.client :=
  ⟨20, { token := 0 }, { server := Lobby.openServer }, Prod.ext Renewals.connect_openSetup rfl⟩

/-- An outcome that is known to be an error. Unlike outcomes, errors can be compared. -/
theorem outcome?_eq_error {t : Traffic} {holder : Nat} {e : Error}
    (h : ((t.outcome? holder).bind fun o => match o with
      | .error e => some e
      | .ok _ => none) = some e) : t.outcome? holder = some (.error e) := by
  cases ho : t.outcome? holder with
  | none => rw [ho] at h; cases h
  | some o =>
    rw [ho] at h
    cases o with
    | ok answer => cases h
    | error f => cases h; rfl

theorem outcome?_calledOff :
    (after Renewals.openSetup { client := Renewals.openClient.client } calledOff).outcome? 0 =
      some (.error (.api "http://slurm.test" (some (.ofPatch 41)) (.cancelled .cancelled))) :=
  outcome?_eq_error (by decide +kernel)

/-- The command reports that it was cancelled, and nothing blames the configuration. -/
theorem config_never_blamed_calledOff :
    Renewals.openSetup.config.validate = .ok () ∧
    Connects Renewals.openSetup Renewals.openClient.client ∧
    Own Renewals.openSetup [] { client := Renewals.openClient.client } calledOff ∧
    (∀ k, (Renewals.openSetup.config.retry.delay .one k).isSome = true) ∧
    let t := after Renewals.openSetup { client := Renewals.openClient.client } calledOff
    t.outcome? 0 = some (.error (.api "http://slurm.test" (some (.ofPatch 41))
      (.cancelled .cancelled))) ∧
    ∀ x ∈ t.activities, ∀ e, x.Reports e → e.Blameless := by
  have hvalid : Renewals.openSetup.config.validate = .ok () := rfl
  have hown : Own Renewals.openSetup [] { client := Renewals.openClient.client } calledOff :=
    ⟨nofun, fun _ hs => List.mem_cons.mpr (Or.inl (List.mem_singleton.mp hs)), nofun, nofun, nofun,
      nofun, nofun, trivial⟩
  obtain ⟨hwaits, -, -, hclient⟩ := config_never_blamed Renewals.openSetup hvalid
  exact ⟨hvalid, connects_openClient, hown,
    fun k => (hwaits k).2 .one (by decide +kernel) (by decide +kernel), outcome?_calledOff,
    (hclient _ calledOff connects_openClient hown).1⟩

end Traffic

end SlurmLink

import SlurmLink.Proofs.CallRun
import SlurmLink.Proofs.Matrix
import SlurmLink.Session.Negotiation

/-!
What a negotiation comes to. The answer to discovery is read, the release in it is parsed, the matrix is
asked for the revisions that the release serves, and the newest of them that is compiled in is bound:

    body ──▶ document ──▶ text ──▶ release ──▶ revisions ──▶ the newest one compiled in
       unreadable   silent   unparsable   uncovered   incompatible

Each step that fails ends the negotiation with its own error, and there is no other way out
(`Negotiation.Verdict`).
-/

namespace SlurmLink

/-! ### Choosing a revision -/

namespace Revision

theorem ofApiVersion?_eq_some_iff {v : ApiVersion} {r : Revision} :
    ofApiVersion? v = some r ↔ r.apiVersion = v := by
  constructor
  · intro h
    have hfound := List.find?_some (p := fun q : Revision => decide (q.apiVersion = v)) h
    exact of_decide_eq_true hfound
  · rintro rfl
    cases r <;> rfl

theorem mem_versions_iff {v : ApiVersion} : v ∈ versions ↔ ∃ r : Revision, r.apiVersion = v := by
  constructor
  · intro h
    obtain ⟨r, -, hr⟩ := List.mem_map.mp h
    exact ⟨r, hr⟩
  · rintro ⟨r, rfl⟩
    exact List.mem_map_of_mem (by cases r <;> decide)

end Revision

theorem explicitRevision_eq_ok_iff {v : ApiVersion} {r : Revision} :
    explicitRevision v = .ok r ↔ r.apiVersion = v := by
  rw [← Revision.ofApiVersion?_eq_some_iff, explicitRevision]
  cases Revision.ofApiVersion? v <;> simp

/-- The first accepted one from the end of ascending versions is the greatest. -/
theorem ApiVersion.greatest_of_find?_reverse {accept : ApiVersion → Bool} {v : ApiVersion} :
    ∀ {vs : List ApiVersion}, vs.Pairwise (· < ·) → vs.reverse.find? accept = some v →
      v ∈ vs ∧ accept v = true ∧ ∀ w ∈ vs, accept w = true → w ≤ v
  | [], _, h => by cases h
  | u :: us, hsorted, h => by
    obtain ⟨hfirst, hrest⟩ := List.pairwise_cons.mp hsorted
    rw [List.reverse_cons, List.find?_append] at h
    rcases Option.or_eq_some_iff.mp h with h | ⟨hnone, h⟩
    · obtain ⟨hmem, haccept, hgreatest⟩ := greatest_of_find?_reverse hrest h
      refine ⟨List.mem_cons_of_mem _ hmem, haccept, fun w hw hacc => ?_⟩
      rcases List.mem_cons.mp hw with rfl | hw
      · exact Nat.le_of_lt (hfirst v hmem)
      · exact hgreatest w hw hacc
    · have haccept := List.find?_some h
      obtain rfl := List.mem_singleton.mp (List.mem_of_find?_eq_some h)
      refine ⟨List.mem_cons_self, haccept, fun w hw hacc => ?_⟩
      rcases List.mem_cons.mp hw with rfl | hw
      · exact Nat.le_refl _
      · exact absurd hacc (List.find?_eq_none.mp hnone w (List.mem_reverse.mpr hw))

/-- The newest revision that a release serves and that is compiled in. -/
structure Matrix.Newest (m : Matrix) (release : ProductVersion) (v : ApiVersion) : Prop where
  compiled : v ∈ Revision.versions
  served : m.Serves release v
  newest : ∀ w ∈ Revision.versions, m.Serves release w → w ≤ v

/-- Selecting fails only if none of the candidates is compiled in. -/
theorem selectVersion_cases (release : ProductVersion) {candidates : List ApiVersion}
    (h : candidates.Pairwise (· < ·)) :
    (∃ v, selectVersion release candidates Revision.versions = .ok v ∧ v ∈ candidates ∧
      v ∈ Revision.versions ∧ ∀ w ∈ candidates, w ∈ Revision.versions → w ≤ v) ∨
    (∃ requested nearest, selectVersion release candidates Revision.versions =
        .error (.unsupportedVersion requested nearest) ∧
      ∀ w ∈ candidates, w ∉ Revision.versions) := by
  rw [selectVersion]
  cases hfound : candidates.reverse.find? (fun v => Revision.versions.contains v) with
  | some v =>
    obtain ⟨hmem, haccept, hgreatest⟩ := ApiVersion.greatest_of_find?_reverse h hfound
    refine Or.inl ⟨v, rfl, hmem, List.contains_iff_mem.mp haccept, fun w hw hc => ?_⟩
    exact hgreatest w hw (List.contains_iff_mem.mpr hc)
  | none =>
    refine Or.inr ?_
    have hnone : ∀ w ∈ candidates, w ∉ Revision.versions := fun w hw hc =>
      List.find?_eq_none.mp hfound w (List.mem_reverse.mpr hw) (List.contains_iff_mem.mpr hc)
    have hhead : Revision.versions.head? = some Revision.v40.apiVersion := rfl
    rw [hhead]
    -- there is always a nearest version, since versions are compiled in
    cases candidates.getLast?.bind fun newest => Revision.versions.reverse.find? (· ≤ newest) with
    | some nearest => exact ⟨_, nearest, rfl, hnone⟩
    | none => exact ⟨_, _, rfl, hnone⟩

/-- A version that was selected has a revision. -/
theorem explicitRevision_of_selected {release : ProductVersion} {candidates : List ApiVersion}
    {v : ApiVersion} (h : selectVersion release candidates Revision.versions = .ok v) :
    ∃ r, explicitRevision v = .ok r ∧ r.apiVersion = v := by
  have hmem : v ∈ Revision.versions := by
    rw [selectVersion] at h
    cases hfound : candidates.reverse.find? (fun v => Revision.versions.contains v) with
    | some w =>
      rw [hfound] at h
      cases h
      exact List.contains_iff_mem.mp (List.find?_some hfound :)
    | none =>
      rw [hfound] at h
      simp only at h
      split at h <;> cases h
  obtain ⟨r, hr⟩ := Revision.mem_versions_iff.mp hmem
  exact ⟨r, explicitRevision_eq_ok_iff.mpr hr, hr⟩

/-- A release is served by the newest revision possible, or there is an error that says why not. -/
theorem chooseRevision_cases {m : Matrix} (h : m.IsBuilt) (release : ProductVersion) :
    (∃ r, chooseRevision m release = .ok r ∧ m.Newest release r.apiVersion) ∨
    (chooseRevision m release = .error (.noMatch release) ∧
      ∀ e ∈ m.entries, e.coverage.contains release ≠ true) ∨
    (∃ requested nearest,
      chooseRevision m release = .error (.unsupportedVersion requested nearest) ∧
      (∃ e ∈ m.entries, e.coverage.contains release = true) ∧
      ∀ v ∈ Revision.versions, ¬ m.Serves release v) := by
  rw [chooseRevision]
  cases hr : m.resolve release with
  | none => exact Or.inr (Or.inl ⟨rfl, Matrix.resolve_eq_none_iff.mp hr⟩)
  | some candidates =>
    obtain ⟨e, he, rfl⟩ := Matrix.exists_decides_of_resolve hr
    have hserves : ∀ v, v ∈ e.supported ↔ m.Serves release v := fun v =>
      h.sound.mem_iff_serves hr
    rcases selectVersion_cases release (h.pairwise_supported he.mem) with
      ⟨v, hv, hmem, hcompiled, hgreatest⟩ | ⟨requested, nearest, herror, hnone⟩
    · obtain ⟨r, hexplicit, rfl⟩ := explicitRevision_of_selected hv
      refine Or.inl ⟨r, ?_, hcompiled, (hserves _).mp hmem, fun w hw hs => ?_⟩
      · simp only [hv, hexplicit]
      · exact hgreatest w ((hserves w).mpr hs) hw
    · refine Or.inr (Or.inr ⟨requested, nearest, by simp only [herror], ⟨e, he.mem, he.covers⟩, ?_⟩)
      exact fun v hv hs => hnone v ((hserves v).mpr hs) hv

/-! ### Reading the answer -/

namespace Discovery

/-- The body of an answer names a release, if only as a text. -/
def Names (body : List UInt8) (text : String) : Prop :=
  ∃ document, readDocument body = some document ∧ reportedRelease document = some text

/-- The body of an answer reports a release. -/
def Reports (body : List UInt8) (release : ProductVersion) : Prop :=
  ∃ text, Names body text ∧ ProductVersion.parse text = .ok release

theorem Names.eq {body : List UInt8} {text text' : String} (h : Names body text)
    (h' : Names body text') : text = text' := by
  obtain ⟨document, hread, hreported⟩ := h
  obtain ⟨document', hread', hreported'⟩ := h'
  rw [hread] at hread'
  cases hread'
  rw [hreported] at hreported'
  cases hreported'
  rfl

theorem Reports.eq {body : List UInt8} {release release' : ProductVersion} (h : Reports body release)
    (h' : Reports body release') : release = release' := by
  obtain ⟨text, hnames, hparse⟩ := h
  obtain ⟨text', hnames', hparse'⟩ := h'
  rw [hnames.eq hnames', hparse'] at hparse
  cases hparse
  rfl

end Discovery

namespace Negotiation

/-- What a negotiation comes to after an answer with success, by the body of the answer: a session of
    the newest revision that the release and the library share, or the error of the first step that
    fails. -/
inductive Verdict (m : Matrix) (endpoint : String) (serial : Nat) (body : List UInt8) :
    Except Error Session → Prop where
  | unreadable (h : Discovery.readDocument body = none) :
      Verdict m endpoint serial body (.error (.api endpoint none (.malformed "discovery")))
  | silent {document : Json} (h : Discovery.readDocument body = some document)
      (hs : Discovery.reportedRelease document = none) :
      Verdict m endpoint serial body (.error (.api endpoint none .noRelease))
  | unparsable {text : String} {e : VersionError} (h : Discovery.Names body text)
      (hp : ProductVersion.parse text = .error e) : Verdict m endpoint serial body (.error (.parse e))
  | uncovered {release : ProductVersion} (h : Discovery.Reports body release)
      (hc : ∀ e ∈ m.entries, e.coverage.contains release ≠ true) :
      Verdict m endpoint serial body (.error (.noMatch release))
  | incompatible {release : ProductVersion} {requested : String} {nearest : ApiVersion}
      (h : Discovery.Reports body release)
      (hc : ∃ e ∈ m.entries, e.coverage.contains release = true)
      (hs : ∀ v ∈ Revision.versions, ¬ m.Serves release v) :
      Verdict m endpoint serial body (.error (.unsupportedVersion requested nearest))
  | bound {release : ProductVersion} {revision : Revision} (h : Discovery.Reports body release)
      (hn : m.Newest release revision.apiVersion) :
      Verdict m endpoint serial body (.ok { serial, revision, endpoint, release := some release })

variable {p : SessionPolicy} {m : Matrix} {endpoint : String} {serial : Nat} {body : List UInt8}
  {outcome : Except Error Session}

/-- A session is bound just if each step can be taken. -/
theorem Verdict.exists_ok_iff (h : Verdict m endpoint serial body outcome) :
    (∃ s, outcome = .ok s) ↔ ∃ release, Discovery.Reports body release ∧
      (∃ e ∈ m.entries, e.coverage.contains release = true) ∧
      ∃ v ∈ Revision.versions, m.Serves release v := by
  constructor
  · rintro ⟨s, rfl⟩
    cases h with
    | bound hr hn =>
      obtain ⟨e, he, -⟩ := hn.served
      exact ⟨_, hr, ⟨e, he.mem, he.covers⟩, _, hn.compiled, hn.served⟩
  · rintro ⟨release, hr, ⟨e, he, hcovers⟩, v, hv, hserves⟩
    cases h with
    | bound => exact ⟨_, rfl⟩
    | unreadable hnone =>
      obtain ⟨text, ⟨document, hread, -⟩, -⟩ := hr
      rw [hnone] at hread
      cases hread
    | silent hdocument hnone =>
      obtain ⟨text, ⟨document, hread, hreported⟩, -⟩ := hr
      rw [hdocument] at hread
      cases hread
      rw [hnone] at hreported
      cases hreported
    | unparsable hnames herror =>
      obtain ⟨text, hnames', hparse⟩ := hr
      rw [hnames.eq hnames', hparse] at herror
      cases herror
    | uncovered hr' hc =>
      rw [hr.eq hr'] at hcovers
      exact absurd hcovers (hc e he)
    | incompatible hr' _ hs =>
      rw [hr.eq hr'] at hserves
      exact absurd hserves (hs v hv)

/-- The errors of unknown kind are those of a body that names no release. -/
theorem Verdict.kind_eq_unknown_iff {e : Error} (h : Verdict m endpoint serial body (.error e)) :
    e.kind = .unknown ↔ ∀ text, ¬ Discovery.Names body text := by
  cases h with
  | unreadable hnone =>
    refine ⟨fun _ text hnames => ?_, fun _ => rfl⟩
    obtain ⟨document, hread, -⟩ := hnames
    rw [hnone] at hread
    cases hread
  | silent hdocument hnone =>
    refine ⟨fun _ text hnames => ?_, fun _ => rfl⟩
    obtain ⟨document, hread, hreported⟩ := hnames
    rw [hdocument] at hread
    cases hread
    rw [hnone] at hreported
    cases hreported
  | unparsable hnames => exact ⟨fun hk => (by cases hk), fun hnone => absurd hnames (hnone _)⟩
  | uncovered hr =>
    obtain ⟨text, hnames, -⟩ := hr
    exact ⟨fun hk => (by cases hk), fun hnone => absurd hnames (hnone _)⟩
  | incompatible hr =>
    obtain ⟨text, hnames, -⟩ := hr
    exact ⟨fun hk => (by cases hk), fun hnone => absurd hnames (hnone _)⟩

/-! ### The steps -/

/-- The steps of a negotiation. -/
inductive Goes (p : SessionPolicy) (n : Negotiation) (l : Link) : Negotiation → Link → Prop where
  /-- A version is named outright. -/
  | named {v : ApiVersion} (hp : n.phase = .starting) (he : p.explicit = some v) :
      Goes p n l (n.conclude ((explicitRevision v).map fun r => (r, none)) l).1
        (n.conclude ((explicitRevision v).map fun r => (r, none)) l).2
  /-- The server is going to be asked. -/
  | asks (hp : n.phase = .starting) (he : p.explicit = none) :
      Goes p n l { n with phase := .discovering (Discovery.call n.context n.endpoint) } l
  | calls {c c' : Call} {l' : Link} (hp : n.phase = .discovering c)
      (hc : Call.Goes p.calls c l c' l') : Goes p n l { n with phase := .discovering c' } l'
  | chooses {c : Call} {outcome : Except Failure Response} (hp : n.phase = .discovering c)
      (ho : c.outcome? = some outcome) :
      Goes p n l (n.conclude (choose p n.endpoint outcome) l).1
        (n.conclude (choose p n.endpoint outcome) l).2

/-- There are no other steps. -/
theorem goes_of_step {n n' : Negotiation} {l l' : Link} (h : n.step p l = some (n', l')) :
    Goes p n l n' l' := by
  rw [step] at h
  cases hp : n.phase with
  | finished outcome => rw [hp] at h; cases h
  | starting =>
    rw [hp] at h
    simp only at h
    cases he : p.explicit with
    | some v =>
      rw [he] at h
      have hgoes := Goes.named (p := p) (l := l) hp he
      rwa [Option.some.inj h] at hgoes
    | none =>
      rw [he] at h
      cases h
      exact .asks hp he
  | discovering c =>
    rw [hp] at h
    simp only at h
    cases ho : c.outcome? with
    | some outcome =>
      rw [ho] at h
      have hgoes := Goes.chooses (p := p) (l := l) hp ho
      rwa [Option.some.inj h] at hgoes
    | none =>
      rw [ho] at h
      obtain ⟨r, hr, he⟩ := Option.map_eq_some_iff.mp h
      cases he
      exact .calls hp (Call.goes_of_step hr)

/-- The end of a negotiation takes no time. -/
theorem conclude_spec (choice : Except Error (Revision × Option ProductVersion)) (n : Negotiation)
    (l : Link) : (∃ outcome, (n.conclude choice l).1 = { n with phase := .finished outcome }) ∧
      l.SameTime (n.conclude choice l).2 := by
  cases choice <;> exact ⟨⟨_, rfl⟩, rfl, rfl, rfl⟩

theorem Goes.sameTime {n n' : Negotiation} {l l' : Link} (h : Goes p n l n' l') : l.SameTime l' := by
  cases h with
  | named => exact (conclude_spec ..).2
  | asks => exact ⟨rfl, rfl, rfl⟩
  | calls _ hc => exact hc.sameTime
  | chooses => exact (conclude_spec ..).2

theorem Goes.hasPanicked_eq_false (hrest : ∀ pause k, p.calls.rest? pause k ≠ none)
    {n n' : Negotiation} {l l' : Link} (h : Goes p n l n' l') : n'.hasPanicked = false := by
  have hended : ∀ choice, (n.conclude choice l).1.hasPanicked = false := fun choice => by
    obtain ⟨⟨outcome, ho⟩, -⟩ := conclude_spec choice n l
    rw [ho, hasPanicked]
  cases h with
  | named => exact hended _
  | asks => rfl
  | calls _ hc => exact hc.hasPanicked_eq_false hrest
  | chooses => exact hended _

/-- An upper bound of the steps that a negotiation still makes. -/
def remaining (p : SessionPolicy) (n : Negotiation) : Nat :=
  match n.phase with
  | .starting => 3 * p.calls.retry.maxAttempts + 6
  | .discovering c => c.remaining p.calls + 1
  | .finished _ => 0

theorem Goes.remaining_lt {n n' : Negotiation} {l l' : Link} (h : Goes p n l n' l') :
    n'.remaining p < n.remaining p := by
  cases h with
  | @named v hp he =>
    obtain ⟨⟨outcome, ho⟩, -⟩ := conclude_spec ((explicitRevision v).map fun r => (r, none)) n l
    rw [ho]
    simp only [remaining, hp]
    omega
  | asks hp he => simp [remaining, hp, Call.remaining, Discovery.call]
  | calls hp hc =>
    simp only [remaining, hp]
    exact Nat.succ_lt_succ hc.remaining_lt
  | @chooses c outcome hp ho =>
    obtain ⟨⟨outcome', ho'⟩, -⟩ := conclude_spec (choose p n.endpoint outcome) n l
    rw [ho']
    simp only [remaining, hp]
    omega

/-- A negotiation that cannot go on but is not over has a call that cannot go on either. -/
theorem waits_of_step_eq_none {n : Negotiation} {l : Link} (h : n.step p l = none)
    (hrun : n.outcome? = none) :
    ∃ c, n.phase = .discovering c ∧ c.outcome? = none ∧ c.step p.calls l = none := by
  rw [step] at h
  cases hp : n.phase with
  | finished outcome => rw [outcome?, hp] at hrun; cases hrun
  | starting =>
    rw [hp] at h
    simp only at h
    cases he : p.explicit <;> (rw [he] at h; cases h)
  | discovering c =>
    rw [hp] at h
    simp only at h
    cases ho : c.outcome? with
    | some outcome => rw [ho] at h; cases h
    | none =>
      rw [ho] at h
      exact ⟨c, rfl, ho, Option.map_eq_none_iff.mp h⟩

theorem step_ne_none_of_wake {n : Negotiation} {t : Nat} {l : Link} (h : n.wake = some t)
    (ht : t ≤ l.now) : n.step p l ≠ none := by
  intro hn
  have hrun : n.outcome? = none := by
    rw [wake] at h
    rw [outcome?]
    split at h
    · next hp => rw [hp]
    · cases h
  obtain ⟨c, hp, -, hstep⟩ := waits_of_step_eq_none hn hrun
  rw [wake, hp] at h
  exact Call.step_ne_none_of_wake h ht hstep

/-! ### The run -/

/-- Choosing by a successful answer comes to what its body says. -/
theorem verdict_conclude (h : p.matrix.IsBuilt) {n : Negotiation} (r : Response) (l : Link) :
    ∃ outcome l', n.conclude (choose p n.endpoint (.ok r)) l =
        ({ n with phase := .finished outcome }, l') ∧ l'.sent = l.sent ∧
      Verdict p.matrix n.endpoint l.sessions r.body outcome := by
  rw [choose, Discovery.conclude, Discovery.release]
  cases hread : Discovery.readDocument r.body with
  | none => exact ⟨_, l, rfl, rfl, .unreadable hread⟩
  | some document =>
    simp only
    cases hreported : Discovery.reportedRelease document with
    | none => exact ⟨_, l, rfl, rfl, .silent hread hreported⟩
    | some text =>
      simp only
      cases hparse : ProductVersion.parse text with
      | error e => exact ⟨_, l, rfl, rfl, .unparsable ⟨document, hread, hreported⟩ hparse⟩
      | ok release =>
        have hreports : Discovery.Reports r.body release :=
          ⟨text, ⟨document, hread, hreported⟩, hparse⟩
        simp only
        rcases chooseRevision_cases h release with ⟨revision, hok, hnewest⟩ | ⟨herror, hnone⟩ |
          ⟨requested, nearest, herror, hcovered, hnone⟩
        · rw [hok]
          exact ⟨_, { l with sessions := l.sessions + 1 }, rfl, rfl, .bound hreports hnewest⟩
        · rw [herror]
          exact ⟨_, l, rfl, rfl, .uncovered hreports hnone⟩
        · rw [herror]
          exact ⟨_, l, rfl, rfl, .incompatible hreports hcovered hnone⟩

/-- A version that is named outright is bound if it is compiled in. -/
theorem conclude_explicit (n : Negotiation) (v : ApiVersion) (l : Link) :
    ∃ outcome l', n.conclude ((explicitRevision v).map fun r => (r, none)) l =
        ({ n with phase := .finished outcome }, l') ∧ l' = { l with sessions := l'.sessions } ∧
      ((∃ s, outcome = .ok s) ↔ v ∈ Revision.versions) ∧
      ∀ s, outcome = .ok s → s.apiVersion = v ∧ s.release = none := by
  cases hv : explicitRevision v with
  | ok r =>
    have hr := explicitRevision_eq_ok_iff.mp hv
    refine ⟨_, { l with sessions := l.sessions + 1 }, rfl, rfl,
      ⟨fun _ => Revision.mem_versions_iff.mpr ⟨r, hr⟩, fun _ => ⟨_, rfl⟩⟩, fun s hs => ?_⟩
    cases hs
    exact ⟨hr, rfl⟩
  | error e =>
    refine ⟨_, l, rfl, rfl, ⟨fun ⟨s, hs⟩ => (by cases hs), fun hmem => ?_⟩, fun s hs => by cases hs⟩
    obtain ⟨r, hr⟩ := Revision.mem_versions_iff.mp hmem
    rw [explicitRevision_eq_ok_iff.mpr hr] at hv
    cases hv

/-- A negotiation that is over makes no step. -/
theorem run_of_finished {n : Negotiation} {outcome : Except Error Session} {l : Link}
    (hp : n.phase = .finished outcome) (k : Nat) : (machine p).run k [n] l = ([n], l) := by
  have hstep : n.step p l = none := by rw [step, hp]
  have hwake : n.wake = none := by rw [wake, hp]
  exact (machine p).run_of_next_eq_none (Machine.next_alone hstep hwake) k

/-- A step that ends a negotiation is all there is to its run. -/
theorem run_succ_of_step {n n' : Negotiation} {outcome : Except Error Session} {l l' : Link}
    (hs : n.step p l = some (n', l')) (hp : n'.phase = .finished outcome) (k : Nat) :
    (machine p).run (k + 1) [n] l = ([n'], l') := by
  rw [Machine.run_alone hs, run_of_finished hp]

section

variable (context : Context) (endpoint : String)

/-- A negotiation that asks the server, with its call. -/
def asking (c : Call) : Negotiation := { context, endpoint, phase := .discovering c }

/-- While its call is under way, a negotiation does what the call does. -/
theorem next_asking {c : Call} {l : Link} (hrun : c.outcome? = none) :
    (machine p).next [asking context endpoint c] l =
      ((Call.machine p.calls).next [c] l).map fun r => (r.1.map (asking context endpoint), r.2) := by
  have hstep : (asking context endpoint c).step p l =
      (c.step p.calls l).map fun r => (asking context endpoint r.1, r.2) := by
    simp only [step, asking, hrun]
  simp only [Machine.next, Machine.stepFirst, machine, Call.machine, hstep]
  cases c.step p.calls l with
  | some r => rfl
  | none =>
    have hwake : (asking context endpoint c).wake = c.wake := rfl
    simp only [Option.map_none, Machine.nextWake, List.filterMap_cons, List.filterMap_nil, hwake]
    cases c.wake <;> rfl

/-- So it has got as far as its call has. -/
theorem run_asking {c' : Call} {l' : Link} : ∀ {fuel : Nat} {c : Call} {l : Link},
    (Call.machine p.calls).run fuel [c] l = ([c'], l') →
      ∃ k, k ≤ fuel ∧
        (machine p).run k [asking context endpoint c] l = ([asking context endpoint c'], l')
  | 0, c, l, h => by
    cases h
    exact ⟨0, Nat.le_refl _, rfl⟩
  | fuel + 1, c, l, h => by
    rw [Machine.run] at h
    cases hnext : (Call.machine p.calls).next [c] l with
    | none =>
      rw [hnext] at h
      cases h
      exact ⟨0, Nat.zero_le _, rfl⟩
    | some r =>
      have hgoing : c.isOver = false := by
        cases hover : c.isOver with
        | false => rfl
        | true =>
          rw [Call.next_of_isOver hover] at hnext
          cases hnext
      have hrun := (Call.isOver_eq_false_iff.mp hgoing).1
      obtain ⟨c₁, hc₁⟩ := Machine.eq_of_next_alone hnext
      rw [hnext] at h
      simp only [hc₁] at h
      obtain ⟨k, hk, hreach⟩ := run_asking h
      refine ⟨k + 1, Nat.succ_le_succ hk, ?_⟩
      rw [Machine.run, next_asking context endpoint hrun, hnext]
      simpa only [Option.map_some, hc₁, List.map_cons, List.map_nil] using hreach

end

/-- A negotiation binds the newest revision that the server's release and the library share, and fails
    closed. Whatever body the answer to discovery has, if it comes with success, however many attempts
    that took: there is a session just if the body reports a release, the matrix covers it, and it
    serves a revision that is compiled in; the session is of the newest of these and keeps the release;
    and otherwise there is the error of the first step that fails, which is of unknown kind just if
    the body does not name a release at all. A version that is named outright is bound without asking,
    if it is compiled in. And a version that was selected always has a revision. -/
theorem newest_compatible (p : SessionPolicy) (hm : p.matrix = .builtin ∨ p.matrix.IsBuilt)
    (context : Context) (endpoint : String) (l : Link) :
    (p.explicit = none → ∀ fuel c l' r,
      (Call.machine p.calls).run fuel [Discovery.call context endpoint] l = ([c], l') →
      c.outcome? = some (.ok r) →
      ∃ outcome l'', (∀ k, fuel + 2 ≤ k → (machine p).run k [{ context, endpoint }] l =
          ([{ context, endpoint, phase := .finished outcome }], l'')) ∧
        l''.sent = l'.sent ∧ Verdict p.matrix endpoint l'.sessions r.body outcome ∧
        ((∃ s, outcome = .ok s) ↔ ∃ release, Discovery.Reports r.body release ∧
          (∃ e ∈ p.matrix.entries, e.coverage.contains release = true) ∧
          ∃ v ∈ Revision.versions, p.matrix.Serves release v) ∧
        (∀ s, outcome = .ok s → ∃ release, Discovery.Reports r.body release ∧
          s.release = some release ∧ p.matrix.Newest release s.apiVersion) ∧
        (∀ e, outcome = .error e →
          (e.kind = .unknown ↔ ∀ text, ¬ Discovery.Names r.body text))) ∧
    (∀ v, p.explicit = some v → ∃ outcome l'',
      (∀ k, 1 ≤ k → (machine p).run k [{ context, endpoint }] l =
        ([{ context, endpoint, phase := .finished outcome }], l'')) ∧
      l'' = { l with sessions := l''.sessions } ∧
      ((∃ s, outcome = .ok s) ↔ v ∈ Revision.versions) ∧
      ∀ s, outcome = .ok s → s.apiVersion = v ∧ s.release = none) ∧
    (∀ release candidates v, selectVersion release candidates Revision.versions = .ok v →
      ∃ r, explicitRevision v = .ok r ∧ r.apiVersion = v) := by
  have hbuilt : p.matrix.IsBuilt := by
    rcases hm with hm | hm
    · rw [hm]
      exact Matrix.isBuilt_builtin
    · exact hm
  refine ⟨fun he fuel c l' r hcall hr => ?_, fun v hv => ?_,
    fun release candidates v hv => explicitRevision_of_selected hv⟩
  · obtain ⟨k, hk, hreach⟩ := run_asking context endpoint hcall
    obtain ⟨outcome, l'', hconclude, hsent, hverdict⟩ :=
      verdict_conclude hbuilt (n := asking context endpoint c) r l'
    have hstart : ({ context, endpoint } : Negotiation).step p l =
        some (asking context endpoint (Discovery.call context endpoint), l) := by
      simp only [step, he, asking]
    have hend : (asking context endpoint c).step p l' =
        some ({ context, endpoint, phase := .finished outcome }, l'') := by
      rw [step]
      simp only [asking, hr]
      exact congrArg some hconclude
    refine ⟨outcome, l'', fun k' hk' => ?_, hsent, hverdict, hverdict.exists_ok_iff,
      fun s hs => ?_, fun e he => ?_⟩
    · obtain ⟨d, rfl⟩ := Nat.exists_eq_add_of_le (show k + 2 ≤ k' by omega)
      rw [show k + 2 + d = (k + (d + 1)) + 1 by omega, Machine.run_alone hstart, Machine.run_add,
        hreach]
      exact run_succ_of_step hend rfl d
    · subst hs
      cases hverdict with
      | bound hreports hnewest => exact ⟨_, hreports, rfl, hnewest⟩
    · subst he
      exact hverdict.kind_eq_unknown_iff
  · obtain ⟨outcome, l'', hconclude, hlink, hok, hsession⟩ :=
      conclude_explicit { context, endpoint } v l
    have hstart : ({ context, endpoint } : Negotiation).step p l =
        some ({ context, endpoint, phase := .finished outcome }, l'') := by
      rw [step]
      simp only [hv]
      exact congrArg some hconclude
    refine ⟨outcome, l'', fun k hk => ?_, hlink, hok, hsession⟩
    obtain ⟨d, rfl⟩ := Nat.exists_eq_add_of_le' hk
    exact run_succ_of_step hstart rfl d

/-- The rows of a matrix in which one release serves other revisions than the rest of its line. -/
def pickyRows : List (Coverage × List ApiVersion) := [
  (.range (.ofLine 24 5) (.ofLine 24 11), [41, 42].map ApiVersion.ofPatch),
  (.exact ⟨⟨24, 5, 4⟩⟩, [40, 39, 99].map ApiVersion.ofPatch)]

def pickyMatrix : Matrix := ⟨pickyRows.map fun r => .of r.1 r.2⟩

theorem isBuilt_pickyMatrix : pickyMatrix.IsBuilt :=
  ⟨pickyRows, Matrix.build_of_pairwise (by decide) (by decide)⟩

/-- The answer of a server that gives its release by components. -/
def componentAnswer : Response :=
  ⟨200, Text.Utf8.encode ("\x7b\"info\":\x7b\"x-slurm\":\x7b\"version\":\x7b\"major\":\"24\"," ++
    "\"minor\":\"05\",\"micro\":4\x7d\x7d\x7d\x7d").toList⟩

/-- The exact entry wins over the range, and the newest revision in it is not compiled in. -/
theorem newest_compatible_picky :
    let p : SessionPolicy := { matrix := pickyMatrix }
    let link : Link := { server := { discovery := [⟨.ok componentAnswer, 0⟩] } }
    let n : Negotiation := { context := { token := 0 }, endpoint := "http://slurm.test" }
    p.matrix.IsBuilt ∧ p.explicit = none ∧
    ∃ s l', (machine p).run 5 [n] link = ([{ n with phase := .finished (.ok s) }], l') ∧
      s.release = some ⟨⟨24, 5, 4⟩⟩ ∧ s.apiVersion = .ofPatch 40 := by
  intro p link n
  have hreports : Discovery.Reports componentAnswer.body ⟨⟨24, 5, 4⟩⟩ := by
    have htext : (Discovery.readDocument componentAnswer.body).bind Discovery.reportedRelease =
        some "24.5.4" := by decide +kernel
    obtain ⟨document, hread, hreported⟩ := Option.bind_eq_some_iff.mp htext
    exact ⟨"24.5.4", ⟨document, hread, hreported⟩, rfl⟩
  have hdecides : p.matrix.Decides (.of (.exact ⟨⟨24, 5, 4⟩⟩) ([40, 39, 99].map ApiVersion.ofPatch))
      ⟨⟨24, 5, 4⟩⟩ := ⟨List.mem_cons_of_mem _ List.mem_cons_self, by decide, fun h => by cases h⟩
  have hcall : ((Call.machine p.calls).run 3 [Discovery.call n.context n.endpoint] link).1.map
      (fun c => c.outcome?.bind Except.toOption) = [some componentAnswer] := by decide +kernel
  obtain ⟨c, hc, hanswer⟩ := List.map_eq_singleton_iff.mp hcall
  obtain ⟨answer, hok, htoOption⟩ := Option.bind_eq_some_iff.mp hanswer
  obtain rfl : answer = .ok componentAnswer := by
    cases answer with
    | error f => cases htoOption
    | ok r => rw [Option.some.inj htoOption]
  obtain ⟨outcome, l', hruns, -, -, hiff, hbound, -⟩ :=
    (newest_compatible p (.inr isBuilt_pickyMatrix) n.context n.endpoint link).1 rfl 3 c _ _
      (Prod.ext hc rfl) hok
  obtain ⟨s, rfl⟩ := hiff.mpr ⟨_, hreports, ⟨_, hdecides.mem, hdecides.covers⟩,
    .ofPatch 40, by decide, _, hdecides, by decide⟩
  obtain ⟨release, hrelease, hkept, hnewest⟩ := hbound s rfl
  rw [hrelease.eq hreports] at hkept hnewest
  refine ⟨isBuilt_pickyMatrix, rfl, s, l', hruns 5 (Nat.le_refl _), hkept, ?_⟩
  obtain ⟨f, hf, hserved⟩ := hnewest.served
  rw [isBuilt_pickyMatrix.sound.eq_of_decides hf hdecides,
    MatrixEntry.mem_supported_of] at hserved
  have honly : ∀ v ∈ Revision.versions, v ∈ [40, 39, 99].map ApiVersion.ofPatch →
      v = .ofPatch 40 := by decide
  exact honly _ hnewest.compiled hserved

end Negotiation

end SlurmLink

import SlurmLink.Proofs.Lobby
import SlurmLink.Proofs.Negotiation

/-!
The age of sessions. Sessions are numbered as they are made, and a cell is given to an endpoint only
after the one before it was filled, so the sessions of one endpoint are numbered as their cells are:

    cell      0   1   2   3         index   a ↦ 3
    endpoint  a   b   a   a                 b ↦ 1
    session   0   2   4   –                               one that is made for cell 3 will be number 5

`Lobby.Aged` says so, and that whoever has made a session which is not in its cell yet has made a newer
one than any that is. `Lobby.Aged.step` is about one event, `Lobby.Aged.after` about all of them.
-/

namespace SlurmLink

/-! ### Numbers of sessions -/

theorem Call.Goes.sessions_eq {p : CallPolicy} {c c' : Call} {l l' : Link} (h : Call.Goes p c l c' l') :
    l'.sessions = l.sessions := by
  cases h <;> rfl

namespace Negotiation

variable {p : SessionPolicy} {n n' : Negotiation} {l l' : Link}

/-- What a step of a negotiation does as far as sessions are concerned: a session that it makes has the
    next number. -/
structure Numbers (n : Negotiation) (l : Link) (n' : Negotiation) (l' : Link) : Prop where
  endpoint_eq : n'.endpoint = n.endpoint
  sessions_le : l.sessions ≤ l'.sessions
  makes : ∀ s, n'.outcome? = some (.ok s) →
    s.serial = l.sessions ∧ l.sessions < l'.sessions ∧ s.endpoint = n.endpoint

theorem numbers_conclude (choice : Except Error (Revision × Option ProductVersion))
    (n : Negotiation) (l : Link) : n.Numbers l (n.conclude choice l).1 (n.conclude choice l).2 := by
  cases choice with
  | error e => exact ⟨rfl, Nat.le_refl _, fun s hs => by cases hs⟩
  | ok r =>
    refine ⟨rfl, Nat.le_succ _, fun s hs => ?_⟩
    cases hs
    exact ⟨rfl, Nat.lt_succ_self _, rfl⟩

theorem Goes.numbers (h : Goes p n l n' l') : n.Numbers l n' l' := by
  cases h with
  | named => exact numbers_conclude ..
  | asks => exact ⟨rfl, Nat.le_refl _, fun s hs => by cases hs⟩
  | calls _ hc => exact ⟨rfl, Nat.le_of_eq hc.sessions_eq.symm, fun s hs => by cases hs⟩
  | chooses => exact numbers_conclude ..

end Negotiation

/-! ### Tables -/

namespace SessionTable

variable {t t' : SessionTable} {made made' : Nat} {c : Nat}

theorem cell_of_length_le (h : t.cells.length ≤ c) : t.cell c = {} := by
  rw [cell, List.getElem?_eq_none h]
  rfl

theorem lt_length_of_session {y : Session} (h : (t.cell c).session = some y) : c < t.cells.length := by
  rcases Nat.lt_or_ge c t.cells.length with hlt | hge
  · exact hlt
  · rw [cell_of_length_le hge] at h
    cases h

/-- A table of sessions with numbers below `made`, where those of one endpoint are numbered as their
    cells are. -/
structure Aged (t : SessionTable) (made : Nat) : Prop where
  serial_lt : ∀ c y, (t.cell c).session = some y → y.serial < made
  /-- No cell is that of two endpoints. -/
  apart : ∀ endpoint endpoint' c, t.find? endpoint = some c → t.find? endpoint' = some c →
    endpoint = endpoint'
  home : ∀ endpoint c y, t.find? endpoint = some c → (t.cell c).session = some y →
    y.endpoint = endpoint
  le_current : ∀ c d y, t.find? y.endpoint = some c → (t.cell d).session = some y → d ≤ c
  ordered : ∀ c d y z, c < d → (t.cell c).session = some y → (t.cell d).session = some z →
    y.endpoint = z.endpoint → y.serial < z.serial

theorem aged_new (made : Nat) : Aged {} made := by
  refine ⟨?_, ?_, ?_, ?_, ?_⟩
  · intro c y h
    cases h
  · intro endpoint endpoint' c h
    cases h
  · intro endpoint c y h
    cases h
  · intro c d y h
    cases h
  · intro c d y z _ h
    cases h

/-- Who is in line does not matter. -/
theorem Aged.congr (h : t.Aged made) (hfind : t'.find? = t.find?)
    (hsession : ∀ c, (t'.cell c).session = (t.cell c).session) (hle : made ≤ made') :
    t'.Aged made' := by
  refine ⟨?_, ?_, ?_, ?_, ?_⟩
  · intro c y hy
    rw [hsession] at hy
    exact Nat.lt_of_lt_of_le (h.serial_lt c y hy) hle
  · rw [hfind]
    exact h.apart
  · simp only [hfind, hsession]
    exact h.home
  · simp only [hfind, hsession]
    exact h.le_current
  · simp only [hsession]
    exact h.ordered

/-- A new cell comes after all others. -/
theorem Aged.renew (h : t.Aged made) (hk : t.Known) (endpoint : String) :
    (t.renew endpoint).2.Aged made := by
  have hnew : (t.cell t.cells.length).session = none := by rw [cell_of_length_le (Nat.le_refl _)]
  refine ⟨?_, ?_, ?_, ?_, ?_⟩
  · simp only [cell_renew]
    exact h.serial_lt
  · intro e e' c he he'
    rw [find?_renew] at he he'
    split at he <;> split at he'
    · next hx hy => rw [hx, hy]
    · cases he
      exact absurd (hk e' _ he') (Nat.lt_irrefl _)
    · cases he'
      exact absurd (hk e _ he) (Nat.lt_irrefl _)
    · exact h.apart e e' c he he'
  · intro e c y he hy
    rw [cell_renew] at hy
    rw [find?_renew] at he
    split at he
    · cases he
      rw [hnew] at hy
      cases hy
    · exact h.home e c y he hy
  · intro c d y hc hy
    rw [cell_renew] at hy
    rw [find?_renew] at hc
    split at hc
    · cases hc
      exact Nat.le_of_lt (lt_length_of_session hy)
    · exact h.le_current c d y hc hy
  · simp only [cell_renew]
    exact h.ordered

/-- The current cell of an endpoint is filled with a session that is newer than all others. -/
theorem Aged.fill (h : t.Aged made) (hk : t.Known) {y : Session}
    (hfound : t.find? y.endpoint = some c) (hlt : y.serial < made)
    (hnewest : ∀ d z, (t.cell d).session = some z → z.endpoint = y.endpoint → z.serial < y.serial) :
    (t.fill c y).Aged made := by
  have hsession := session_fill (hk _ c hfound) y
  have hfind : (t.fill c y).find? = t.find? := rfl
  refine ⟨?_, h.apart, ?_, ?_, ?_⟩
  · intro d z hz
    rw [hsession] at hz
    split at hz
    · cases hz
      exact hlt
    · exact h.serial_lt d z hz
  · intro e d z he hz
    rw [hsession] at hz
    split at hz
    · next hd =>
      cases hz
      subst hd
      exact h.apart _ _ _ hfound he
    · exact h.home e d z he hz
  · intro c' d z hc' hz
    rw [hfind] at hc'
    rw [hsession] at hz
    split at hz
    · next hd =>
      cases hz
      rw [hfound] at hc'
      cases hc'
      exact Nat.le_of_eq hd
    · exact h.le_current c' d z hc' hz
  · intro d d' z z' hdd hz hz' he
    rw [hsession] at hz hz'
    split at hz <;> split at hz'
    · next hd hd' => omega
    · next hd hd' =>
      cases hz
      rw [he] at hfound
      exact absurd (h.le_current c d' z' hfound hz') (by omega)
    · cases hz'
      exact hnewest d z hz he
    · exact h.ordered d d' z z' hdd hz hz' he

/-- No two sessions of an endpoint have one number, and one session is in one cell only. -/
theorem Aged.cell_inj (h : t.Aged made) {d : Nat} {y z : Session} (hc : (t.cell c).session = some y)
    (hd : (t.cell d).session = some z) (he : y.endpoint = z.endpoint) (hs : y.serial = z.serial) :
    c = d := by
  rcases Nat.lt_trichotomy c d with hlt | heq | hgt
  · exact absurd (h.ordered c d y z hlt hc hd he) (Nat.not_lt_of_le (Nat.le_of_eq hs.symm))
  · exact heq
  · exact absurd (h.ordered d c z y hgt hd hc he.symm) (Nat.not_lt_of_le (Nat.le_of_eq hs))

end SessionTable

namespace Acquisition

/-- The session that a wish is for another than is in the current cell of its endpoint. -/
def Replaces (wish : SessionWish) (t : SessionTable) (c : Nat) (y : Session) : Prop :=
  ∃ stale, wish = .other stale ∧ t.find? stale.endpoint = some c ∧ (t.cell c).session = some y ∧
    y.serial = stale.serial

/-- Looking for the cell of a wish either comes to the current cell of the endpoint and changes nothing,
    or gives the endpoint a new cell: if it has none, or if its session is the outdated one. -/
theorem cellOf_cases {t : SessionTable} (hk : t.Known) (wish : SessionWish) :
    (∃ c, cellOf wish t = (c, t) ∧ t.find? wish.endpoint = some c ∧ ∀ y, ¬ Replaces wish t c y) ∨
    (cellOf wish t = t.renew wish.endpoint ∧
      (t.find? wish.endpoint = none ∨ ∃ c y, Replaces wish t c y)) := by
  have hobtain : ∀ endpoint, (∃ c, t.obtain endpoint = (c, t) ∧ t.find? endpoint = some c) ∨
      (t.obtain endpoint = t.renew endpoint ∧ t.find? endpoint = none) := by
    intro endpoint
    rw [SessionTable.obtain]
    cases hf : t.find? endpoint with
    | some c => exact Or.inl ⟨c, rfl, rfl⟩
    | none => exact Or.inr ⟨rfl, rfl⟩
  cases wish with
  | any endpoint =>
    rcases hobtain endpoint with ⟨c, hc, hf⟩ | ⟨hr, hf⟩
    · refine Or.inl ⟨c, hc, hf, ?_⟩
      rintro y ⟨stale, hwish, -⟩
      cases hwish
    · exact Or.inr ⟨hr, Or.inl hf⟩
  | other stale =>
    have hkeep : (∀ c y, ¬ Replaces (.other stale) t c y) → t.replace stale = t.obtain stale.endpoint →
        (∃ c, t.replace stale = (c, t) ∧ t.find? stale.endpoint = some c ∧
          ∀ y, ¬ Replaces (.other stale) t c y) ∨
        (t.replace stale = t.renew stale.endpoint ∧
          (t.find? stale.endpoint = none ∨ ∃ c y, Replaces (.other stale) t c y)) := by
      intro hnot he
      rcases hobtain stale.endpoint with ⟨c, hc, hf⟩ | ⟨hr, hf⟩
      · exact Or.inl ⟨c, he.trans hc, hf, hnot c⟩
      · exact Or.inr ⟨he.trans hr, Or.inl hf⟩
    show (∃ c, t.replace stale = (c, t) ∧ _) ∨ (t.replace stale = _ ∧ _)
    cases hcurrent : t.get? stale.endpoint with
    | none =>
      refine hkeep ?_ (by rw [SessionTable.replace, hcurrent])
      rintro c y ⟨stale', hwish, hf, hy, -⟩
      cases hwish
      rw [SessionTable.get?_eq hk, hf, Option.bind_some, hy] at hcurrent
      cases hcurrent
    | some current =>
      obtain ⟨c, hf, hy⟩ := Option.bind_eq_some_iff.mp (SessionTable.get?_eq hk _ ▸ hcurrent)
      by_cases hs : current.serial = stale.serial
      · exact Or.inr ⟨by rw [SessionTable.replace, hcurrent]; exact if_pos hs,
          Or.inr ⟨c, current, stale, rfl, hf, hy, hs⟩⟩
      · refine hkeep ?_ (by rw [SessionTable.replace, hcurrent]; exact if_neg hs)
        rintro d y ⟨stale', hwish, hf', hy', hs'⟩
        cases hwish
        rw [hf] at hf'
        cases hf'
        rw [hy] at hy'
        cases hy'
        exact hs hs'

theorem aged_cellOf {t : SessionTable} {made : Nat} (h : t.Aged made) (hk : t.Known)
    (wish : SessionWish) : (cellOf wish t).2.Aged made := by
  rcases cellOf_cases hk wish with ⟨c, hc, -⟩ | ⟨hr, -⟩
  · rw [hc]
    exact h
  · rw [hr]
    exact h.renew hk _

end Acquisition

/-! ### Those who want sessions -/

/-- A session that one makes for itself is for the endpoint of its wish and newer than all that are in
    a cell of that endpoint. -/
structure Acquisition.Ready (a : Acquisition) (t : SessionTable) (made : Nat) : Prop where
  home : ∀ c u y, a.place? = some (c, u) → (t.cell c).session = some y → y.endpoint = a.wish.endpoint
  asks : ∀ c u n, a.phase = .negotiating c u n → n.endpoint = a.wish.endpoint
  makes : ∀ c u n y, a.phase = .negotiating c u n → n.outcome? = some (.ok y) →
    y.serial < made ∧ y.endpoint = a.wish.endpoint ∧
      ∀ d z, (t.cell d).session = some z → z.endpoint = y.endpoint → z.serial < y.serial

namespace Acquisition

variable {a : Acquisition} {t t' : SessionTable} {made made' : Nat}

theorem Ready.congr (h : a.Ready t made) (hsession : ∀ c, (t'.cell c).session = (t.cell c).session)
    (hle : made ≤ made') : a.Ready t' made' := by
  refine ⟨?_, h.asks, ?_⟩
  · simp only [hsession]
    exact h.home
  · intro c u n y hp hy
    obtain ⟨hlt, he, hnewest⟩ := h.makes c u n y hp hy
    simp only [hsession]
    exact ⟨Nat.lt_of_lt_of_le hlt hle, he, hnewest⟩

theorem ready_of_place? (h : a.place? = none) : a.Ready t made := by
  refine ⟨?_, ?_, ?_⟩
  · intro c u y hplace
    rw [h] at hplace
    cases hplace
  · intro c u n hp
    rw [place?_of_negotiating hp] at h
    cases h
  · intro c u n y hp
    rw [place?_of_negotiating hp] at h
    cases h

end Acquisition

namespace Lobby

variable {p : SessionPolicy} {s s' : Lobby} {i : Nat} {a a' : Acquisition} {x : Option Acquisition}

/-- How sessions are numbered. -/
structure Aged (s : Lobby) : Prop where
  numbered : s.table.Aged s.hub.link.sessions
  ready : ∀ i a, s.caller? i = some a → a.Ready s.table s.hub.link.sessions

theorem aged_new (link : Link) : Aged { hub := { link } } := by
  refine ⟨SessionTable.aged_new _, ?_⟩
  intro i a h
  cases h

/-- The numbers stay in order if no cell is filled. -/
theorem Aged.alters (h : s.Aged) (hx : s.Alters i x s') (ht : s'.table.Aged s'.hub.link.sessions)
    (hsession : ∀ c, (s'.table.cell c).session = (s.table.cell c).session)
    (hle : s.hub.link.sessions ≤ s'.hub.link.sessions)
    (hready : ∀ a, x = some a → a.Ready s'.table s'.hub.link.sessions) : s'.Aged := by
  refine ⟨ht, ?_⟩
  intro j b hb
  rw [hx j] at hb
  split at hb
  · exact hready b hb
  · exact (h.ready j b hb).congr hsession hle

/-- Whoever negotiates does so for the current cell of its endpoint. -/
theorem Orderly.find?_of_negotiating (ho : s.Orderly) {c u : Nat} {n : Negotiation}
    (ha : s.caller? i = some a) (hp : a.phase = .negotiating c u n) :
    s.table.find? a.wish.endpoint = some c := by
  have hseat := ho.seated i a c u ha (Acquisition.place?_of_negotiating hp)
  exact (hseat.lined (hseat.first n hp).1).2

/-- When a session is put into its cell, nobody else has a newer one for that endpoint. -/
theorem Aged.fills (h : s.Aged) (ho : s.Orderly) {c u : Nat} {n : Negotiation} {y : Session}
    (ha : s.caller? i = some a) (hp : a.phase = .negotiating c u n) (hy : n.outcome? = some (.ok y))
    (hx : s.Alters i (some a') s') (hover : a'.place? = none) (ht : s'.table = s.table.fill c y)
    (hl : s'.hub.link = s.hub.link) : s'.Aged := by
  obtain ⟨hlt, he, hnewest⟩ := (h.ready i a ha).makes c u n y hp hy
  have hfound : s.table.find? y.endpoint = some c := he ▸ ho.find?_of_negotiating ha hp
  have hsession := SessionTable.session_fill (ho.lines.known _ c hfound) y
  refine ⟨?_, ?_⟩
  · rw [ht, hl]
    exact h.numbered.fill ho.lines.known hfound hlt hnewest
  · intro j b hb
    rw [hx j] at hb
    split at hb
    · cases hb
      exact Acquisition.ready_of_place? hover
    · next hj =>
      have hready := h.ready j b hb
      refine ⟨?_, hready.asks, ?_⟩
      · intro d v z hplace hz
        rw [ht, hsession] at hz
        split at hz
        · -- its cell was not filled, and so it was the current cell of its endpoint
          next hd =>
          cases hz
          subst hd
          have hseat := ho.seated i a d u ha (Acquisition.place?_of_negotiating hp)
          have hwaits := ((ho.seated j b d v hb hplace).lined (hseat.first n hp).1).2
          exact h.numbered.apart _ _ _ hfound hwaits
        · exact hready.home d v z hplace hz
      · intro d v m z hq hz
        obtain ⟨hlt', he', hnewest'⟩ := hready.makes d v m z hq hz
        rw [hl]
        refine ⟨hlt', he', ?_⟩
        intro d' w hw hwe
        rw [ht, hsession] at hw
        split at hw
        · -- two would have negotiated for one endpoint at once
          cases hw
          have hfound' := ho.find?_of_negotiating hb hq
          rw [← he', ← hwe, hfound] at hfound'
          cases hfound'
          exact absurd (ho.eq_of_negotiating hb hq ha hp) hj
        · exact hnewest' d' w hw hwe

theorem Aged.goes (h : s.Aged) (ho : s.Orderly) (ha : s.caller? i = some a)
    (hg : Acquisition.Goes p a s.hub a' s'.hub) (hx : s.Alters i (some a') s') : s'.Aged := by
  have hself := h.ready i a ha
  generalize hhub : s'.hub = hub at hg
  have htable : s'.table = hub.table := by rw [table, hhub]
  have hlink : s'.hub.link = hub.link := by rw [hhub]
  cases hg with
  | @finds c table y hp hc hs =>
    have hf := Acquisition.cellOf_spec ho.lines.known a.wish
    have ht := Acquisition.aged_cellOf h.numbered ho.lines.known a.wish
    rw [← Lobby.table] at hc
    rw [hc] at hf ht
    refine h.alters hx (by rw [htable, hlink]; exact ht)
      (fun d => by rw [htable, hf.steady.cell_eq]) (Nat.le_of_eq (by rw [hlink])) ?_
    rintro b ⟨⟩
    exact Acquisition.ready_of_place? rfl
  | @linesUp c table hp hc hs =>
    have hf := Acquisition.cellOf_spec ho.lines.known a.wish
    have ht := Acquisition.aged_cellOf h.numbered ho.lines.known a.wish
    rw [← Lobby.table] at hc
    rw [hc] at hf ht
    have hsession : ∀ d, (s'.table.cell d).session = (table.cell d).session := by
      intro d
      rw [htable]
      exact SessionTable.session_lineUp ..
    refine h.alters hx ?_ (fun d => by rw [hsession, hf.steady.cell_eq])
      (Nat.le_of_eq (by rw [hlink])) ?_
    · rw [hlink]
      exact ht.congr (by rw [htable]; rfl) hsession (Nat.le_refl _)
    · rintro b ⟨⟩
      refine ⟨?_, ?_, ?_⟩
      · intro d u y hplace hy
        cases hplace
        rw [hsession, hs] at hy
        cases hy
      · intro d u n hq
        cases hq
      · intro d u n y hq
        cases hq
  | takes hp hs =>
    refine h.alters hx (by rw [htable, hlink]; exact h.numbered) (fun d => by rw [htable]; rfl)
      (Nat.le_of_eq (by rw [hlink])) ?_
    rintro b ⟨⟩
    exact Acquisition.ready_of_place? rfl
  | @begins c u hp hs hl =>
    refine h.alters hx (by rw [htable, hlink]; exact h.numbered) (fun d => by rw [htable]; rfl)
      (Nat.le_of_eq (by rw [hlink])) ?_
    rintro b ⟨⟩
    refine ⟨?_, ?_, ?_⟩
    · intro d v y hplace hy
      cases hplace
      rw [htable] at hy
      exact hself.home c u y (Acquisition.place?_of_waiting hp) hy
    · intro d v n hq
      cases hq
      rfl
    · intro d v n y hq hy
      cases hq
      cases hy
  | @negotiates c u n n' l hp hn =>
    have hnum := (Negotiation.goes_of_step hn).numbers
    have hle : s.hub.link.sessions ≤ s'.hub.link.sessions := by
      rw [hlink]
      exact hnum.sessions_le
    refine h.alters hx ?_ (fun d => by rw [htable]; rfl) hle ?_
    · exact h.numbered.congr (by rw [htable]; rfl) (fun d => by rw [htable]; rfl) hle
    · rintro b ⟨⟩
      refine ⟨?_, ?_, ?_⟩
      · intro d v y hplace hy
        cases hplace
        rw [htable] at hy
        exact hself.home c u y (Acquisition.place?_of_negotiating hp) hy
      · intro d v m hq
        cases hq
        exact hnum.endpoint_eq.trans (hself.asks c u n hp)
      · intro d v m y hq hy
        cases hq
        obtain ⟨hserial, hlt, he⟩ := hnum.makes y hy
        refine ⟨?_, he.trans (hself.asks c u n hp), ?_⟩
        · rw [hlink, hserial]
          exact hlt
        · intro d z hz _
          rw [htable] at hz
          rw [hserial]
          exact h.numbered.serial_lt d z hz
  | fills hp hy => exact h.fills ho ha hp hy hx rfl htable hlink
  | @fails c u n e hp hy =>
    have hsession : ∀ d, (s'.table.cell d).session = (s.table.cell d).session := by
      intro d
      rw [htable]
      exact SessionTable.session_leave ..
    refine h.alters hx ?_ hsession (Nat.le_of_eq (by rw [hlink])) ?_
    · rw [hlink]
      exact h.numbered.congr (by rw [htable]; rfl) hsession (Nat.le_refl _)
    · rintro b ⟨⟩
      exact Acquisition.ready_of_place? rfl

/-- Sessions are never unmade. -/
theorem sessions_le_step (s : Lobby) (e : LobbyEvent) :
    s.hub.link.sessions ≤ (s.step p e).hub.link.sessions := by
  cases e with
  | want context wish => exact Nat.le_refl _
  | meanwhile link => exact Nat.le_max_left ..
  | giveUp i =>
    rw [step]
    cases s.caller? i with
    | none => exact Nat.le_refl _
    | some a =>
      simp only
      split
      · exact Nat.le_refl _
      · rw [Acquisition.abandon]
        split <;> exact Nat.le_refl _
  | advance i =>
    rw [step]
    cases s.caller? i with
    | none => exact Nat.le_refl _
    | some a =>
      cases hs : a.step p s.hub with
      | none =>
        simp only [hs]
        exact Nat.le_refl _
      | some r =>
        obtain ⟨a', hub⟩ := r
        simp only [hs]
        cases Acquisition.goes_of_step hs with
        | negotiates hp hn => exact (Negotiation.goes_of_step hn).numbers.sessions_le
        | _ => exact Nat.le_refl _

theorem Aged.step (h : s.Aged) (ho : s.Orderly) (e : LobbyEvent) : (s.step p e).Aged := by
  have hle := sessions_le_step (p := p) s e
  cases turn_step p s e with
  | goes he ha hg hx hr => exact h.goes ho ha hg hx
  | joins he hx hh hr =>
    refine h.alters hx ?_ (fun d => by rw [table, hh]; rfl) hle ?_
    · rw [table, hh]
      exact h.numbered
    · rintro b ⟨⟩
      exact Acquisition.ready_of_place? rfl
  | @leaves i a he ha ho' hh hx hr =>
    have htable : (s.step p e).table = _ := (congrArg Hub.table hh).trans (a.table_abandon s.hub)
    have hsession : ∀ d, ((s.step p e).table.cell d).session = (s.table.cell d).session := by
      intro d
      rw [htable]
      split
      · exact SessionTable.session_leave ..
      · rfl
    refine h.alters hx (h.numbered.congr ?_ hsession hle) hsession hle (fun b hb => by cases hb)
    rw [htable]
    split <;> rfl
  | rests hc ht hr =>
    refine ⟨?_, ?_⟩
    · rw [ht]
      exact h.numbered.congr rfl (fun d => rfl) hle
    · intro i a ha
      rw [caller?_congr hc] at ha
      rw [ht]
      exact (h.ready i a ha).congr (fun d => rfl) hle

theorem Aged.after (h : s.Aged) (ho : s.Orderly) (events : List LobbyEvent) :
    (s.after p events).Aged := by
  induction events generalizing s with
  | nil => exact h
  | cons e events ih => exact ih (h.step ho e) (ho.turn (turn_step p s e))

end Lobby

end SlurmLink

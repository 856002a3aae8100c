import Mathlib.Data.Set.Card
import SlurmLink.Proofs.Succession

/-!
What a failed negotiation leaves behind. An endpoint gets its cell before anybody negotiates, and a
negotiation that fails only leaves the line at the cell:

    want any   ──▶   cell, in line   ──▶   negotiating   ──▶   failed
    find?            find? = some c                            find? = some c
    get? none        get? none                                 get? none

So the sessions by endpoint are what they were, and the endpoint has a cell from then on. The number of
endpoints that have a cell is that of the endpoints with a session and of those whose cell is vacant
(`SessionTable.Indexed.size_eq`), and a failed call leaves it as it was exactly if the endpoint's cell was
vacant already.
-/

namespace SlurmLink

namespace SessionTable

variable {t t' : SessionTable} {endpoint key : String}

/-- The endpoints that have a session. -/
def served (t : SessionTable) : Set String := {endpoint | t.get? endpoint ≠ none}

/-- The endpoints that have a cell with no session in it. -/
def vacant (t : SessionTable) : Set String :=
  {endpoint | t.find? endpoint ≠ none ∧ t.get? endpoint = none}

theorem mem_served : endpoint ∈ t.served ↔ t.get? endpoint ≠ none := Iff.rfl

theorem mem_vacant : endpoint ∈ t.vacant ↔ t.find? endpoint ≠ none ∧ t.get? endpoint = none := Iff.rfl

theorem find?_ne_none_of_get? (h : t.get? endpoint ≠ none) : t.find? endpoint ≠ none := by
  intro hf
  rw [get?, hf] at h
  exact h rfl

/-- The sessions by endpoint are a matter of the cells that are in use and the sessions in them. -/
theorem get?_congr (hk : t.Known) (hk' : t'.Known) (hfind : t'.find? = t.find?)
    (hsession : ∀ c, (t'.cell c).session = (t.cell c).session) (key : String) :
    t'.get? key = t.get? key := by
  rw [get?_eq hk', get?_eq hk, hfind]
  congr 1
  funext c
  exact hsession c

/-- Every cell that is in use has been made, and no endpoint has two of them. -/
structure Indexed (t : SessionTable) : Prop where
  known : t.Known
  nodup : (t.index.map Prod.fst).Nodup

theorem indexed_new : Indexed {} := ⟨fun _ _ h => (nomatch h), List.nodup_nil⟩

theorem Indexed.congr (h : t.Indexed) (hindex : t'.index = t.index)
    (hlength : t'.cells.length = t.cells.length) : t'.Indexed := by
  refine ⟨fun endpoint c hc => ?_, by rw [hindex]; exact h.nodup⟩
  rw [find?, hindex] at hc
  rw [hlength]
  exact h.known endpoint c hc

theorem indexed_clear (t : SessionTable) : t.clear.Indexed :=
  ⟨fun _ _ hc => (nomatch hc), List.nodup_nil⟩

theorem find?_ne_none_iff : t.find? key ≠ none ↔ key ∈ t.index.map Prod.fst := by
  rw [find?, ne_eq, List.lookup_eq_none_iff]
  simp

theorem Indexed.renew (h : t.Indexed) (endpoint : String) : (t.renew endpoint).2.Indexed := by
  refine ⟨?_, ?_⟩
  · intro key c hc
    have hlength : (t.renew endpoint).2.cells.length = t.cells.length + 1 := by
      simp [SessionTable.renew]
    rw [find?_renew] at hc
    split at hc
    · cases hc
      omega
    · have := h.known key c hc
      omega
  · rw [SessionTable.renew]
    cases hf : t.find? endpoint with
    | some c =>
      have hkeys : Prod.fst ∘ (fun e : String × Nat =>
          if e.1 = endpoint then (e.1, t.cells.length) else e) = Prod.fst := by
        funext e
        simp only [Function.comp_apply]
        split <;> rfl
      simp only [List.map_map, hkeys]
      exact h.nodup
    | none =>
      have hnew : endpoint ∉ t.index.map Prod.fst := fun hmem => find?_ne_none_iff.mpr hmem hf
      simp only [List.map_append, List.map_cons, List.map_nil]
      exact List.nodup_append.mpr ⟨h.nodup, List.pairwise_singleton _ _, fun key hkey e he => by
        rw [List.mem_singleton.mp he]
        rintro rfl
        exact hnew hkey⟩

/-- The size is the number of the endpoints that have a cell. -/
theorem Indexed.size_eq_ncard (h : t.Indexed) : t.size = {key | t.find? key ≠ none}.ncard := by
  have hset : {key | t.find? key ≠ none} = ((t.index.map Prod.fst).toFinset : Set String) := by
    ext key
    rw [Set.mem_ofPred_eq, find?_ne_none_iff, List.coe_toFinset, Set.mem_ofPred_eq]
  rw [hset, Set.ncard_coe_finset, List.toFinset_card_of_nodup h.nodup, List.length_map, size]

theorem finite_cells (t : SessionTable) : {key | t.find? key ≠ none}.Finite := by
  refine (List.finite_toSet (t.index.map Prod.fst)).subset fun key hkey => ?_
  exact find?_ne_none_iff.mp hkey

theorem finite_served (t : SessionTable) : t.served.Finite :=
  t.finite_cells.subset fun _ h => find?_ne_none_of_get? h

theorem finite_vacant (t : SessionTable) : t.vacant.Finite := t.finite_cells.subset fun _ h => h.1

/-- An endpoint that has a cell either has a session or is vacant. -/
theorem Indexed.size_eq (h : t.Indexed) : t.size = t.served.ncard + t.vacant.ncard := by
  have hunion : {key | t.find? key ≠ none} = t.served ∪ t.vacant := by
    ext key
    refine ⟨fun hkey => ?_, fun hkey => hkey.elim find?_ne_none_of_get? And.left⟩
    by_cases hget : t.get? key = none
    · exact Or.inr ⟨hkey, hget⟩
    · exact Or.inl hget
  have hdisjoint : Disjoint t.served t.vacant :=
    Set.disjoint_left.mpr fun _ hserved hvacant => hserved hvacant.2
  rw [h.size_eq_ncard, hunion, Set.ncard_union_eq hdisjoint t.finite_served t.finite_vacant]

/-- What a call that has come to nothing leaves behind: every endpoint has the session that it had, and
    the one that the call was for has a cell. -/
structure Leaves (t : SessionTable) (endpoint : String) (t' : SessionTable) : Prop where
  get?_eq : ∀ key, t'.get? key = t.get? key
  find?_iff : ∀ key, t'.find? key ≠ none ↔ key = endpoint ∨ t.find? key ≠ none

theorem Leaves.served_eq (h : t.Leaves endpoint t') : t'.served = t.served := by
  ext key
  rw [mem_served, mem_served, h.get?_eq]

theorem Leaves.vacant_eq (h : t.Leaves endpoint t') (hnone : t.get? endpoint = none) :
    t'.vacant = insert endpoint t.vacant := by
  ext key
  rw [Set.mem_insert_iff, mem_vacant, mem_vacant, h.find?_iff, h.get?_eq]
  constructor
  · rintro ⟨rfl | hkey, hget⟩
    · exact Or.inl rfl
    · exact Or.inr ⟨hkey, hget⟩
  · rintro (rfl | ⟨hkey, hget⟩)
    · exact ⟨Or.inl rfl, hnone⟩
    · exact ⟨Or.inr hkey, hget⟩

/-- The size stays as it was, or is one more if the endpoint has got its cell with the call. -/
theorem Leaves.size_cases (h : t.Leaves endpoint t') (ht : t.Indexed) (ht' : t'.Indexed)
    (hnone : t.get? endpoint = none) :
    (endpoint ∈ t.vacant ∧ t'.size = t.size) ∨ (endpoint ∉ t.vacant ∧ t'.size = t.size + 1) := by
  rw [ht.size_eq, ht'.size_eq, h.served_eq, h.vacant_eq hnone]
  by_cases hmem : endpoint ∈ t.vacant
  · rw [Set.insert_eq_of_mem hmem]
    exact Or.inl ⟨hmem, rfl⟩
  · rw [Set.ncard_insert_of_notMem hmem t.finite_vacant]
    exact Or.inr ⟨hmem, rfl⟩

end SessionTable

namespace Acquisition

variable {p : SessionPolicy} {a a' : Acquisition} {h h' : Hub} {t : SessionTable} {endpoint : String}

theorem indexed_cellOf (ht : t.Indexed) (wish : SessionWish) : (cellOf wish t).2.Indexed := by
  rcases cellOf_cases ht.known wish with ⟨c, hc, -⟩ | ⟨hr, -⟩
  · rw [hc]
    exact ht
  · rw [hr]
    exact ht.renew _

theorem Goes.indexed (hg : Goes p a h a' h') (ht : h.table.Indexed) : h'.table.Indexed := by
  cases hg with
  | finds _ hc =>
    have hcell := indexed_cellOf ht a.wish
    rw [hc] at hcell
    exact hcell
  | linesUp _ hc =>
    have hcell := indexed_cellOf ht a.wish
    rw [hc] at hcell
    exact hcell.congr rfl (List.length_modify ..)
  | takes => exact ht
  | begins => exact ht
  | negotiates => exact ht
  | fills => exact ht.congr rfl (List.length_modify ..)
  | fails => exact ht.congr rfl (List.length_modify ..)

theorem indexed_abandon (a : Acquisition) (ht : h.table.Indexed) : (a.abandon h).table.Indexed := by
  rw [table_abandon]
  split
  · exact ht.congr rfl (List.length_modify ..)
  · exact ht

/-- Whoever lines up for any session of an endpoint leaves a cell there and nothing else, so far. -/
theorem leaves_cellOf (endpoint : String) (ht : t.Indexed)
    (hnone : ((cellOf (.any endpoint) t).2.cell (cellOf (.any endpoint) t).1).session = none) :
    t.Leaves endpoint (cellOf (.any endpoint) t).2 := by
  rcases cellOf_cases ht.known (.any endpoint) with ⟨c, hc, hf, -⟩ | ⟨hr, hwhy⟩
  · rw [hc]
    refine ⟨fun _ => rfl, fun key => ⟨Or.inr, ?_⟩⟩
    rintro (rfl | hkey)
    · rw [show t.find? key = some c from hf]
      nofun
    · exact hkey
  · have hf : t.find? endpoint = none := by
      rcases hwhy with hf | ⟨c, y, stale, hwish, -⟩
      · exact hf
      · cases hwish
    rw [hr] at hnone ⊢
    refine ⟨fun key => ?_, fun key => ?_⟩
    · rw [SessionTable.get?_eq (ht.renew _).known, SessionTable.get?_eq ht.known,
        SessionTable.find?_renew]
      split
      · next hkey =>
        rw [show key = endpoint from hkey, hf]
        exact hnone
      · simp only [SessionTable.cell_renew]
    · rw [SessionTable.find?_renew]
      by_cases hkey : key = endpoint
      · rw [if_pos (show key = (SessionWish.any endpoint).endpoint from hkey)]
        exact ⟨fun _ => Or.inl hkey, fun _ => nofun⟩
      · rw [if_neg (show ¬ key = (SessionWish.any endpoint).endpoint from hkey)]
        exact ⟨Or.inr, fun h => h.resolve_left hkey⟩

/-- How far a call for any session of an endpoint can have got, and what has become of the table. -/
inductive Tries (t : SessionTable) (endpoint : String) (a : Acquisition) (t' : SessionTable) : Prop where
  | entering (hp : a.phase = .entering) (hw : a.wish = .any endpoint) (ht : t' = t)
  | trying (hp : a.phase ≠ .entering) (hnone : t.get? endpoint = none) (hl : t.Leaves endpoint t')
  | served {y : Session} (ho : a.outcome? = some (.ok y))

/-- A step that changes no cell that is in use, and no session, leaves behind what the ones before it
    have left. -/
theorem Tries.keeps {t' t'' : SessionTable} (hl : t.Leaves endpoint t') (hk : t'.Known)
    (hk' : t''.Known) (hfind : t''.find? = t'.find?)
    (hsession : ∀ c, (t''.cell c).session = (t'.cell c).session) : t.Leaves endpoint t'' := by
  refine ⟨fun key => ?_, fun key => ?_⟩
  · rw [SessionTable.get?_congr hk hk' hfind hsession]
    exact hl.get?_eq key
  · rw [hfind]
    exact hl.find?_iff key

theorem Tries.goes (h₀ : Tries t endpoint a h.table) (hg : Goes p a h a' h') (ht : h.table.Indexed) :
    Tries t endpoint a' h'.table := by
  have ht' := hg.indexed ht
  cases h₀ with
  | served ho =>
    rw [hg.outcome?_eq_none] at ho
    cases ho
  | entering hp hw htable =>
    cases hg with
    | finds => exact .served rfl
    | @linesUp c table _ hc hs =>
      rw [hw] at hc
      have hleaves : h.table.Leaves endpoint table := by
        have := leaves_cellOf endpoint ht (by rw [hc]; exact hs)
        rwa [hc] at this
      have htable' := indexed_cellOf ht (.any endpoint)
      rw [hc] at htable'
      have hfound : table.find? endpoint = some c := by
        have := (cellOf_spec ht.known (.any endpoint)).found
        rwa [hc] at this
      rw [← htable]
      refine .trying nofun ?_ (Tries.keeps hleaves htable'.known ht'.known rfl
        fun d => SessionTable.session_lineUp ..)
      rw [← hleaves.get?_eq, SessionTable.get?_eq htable'.known, hfound]
      exact hs
    | takes hq => rw [hp] at hq; cases hq
    | begins hq => rw [hp] at hq; cases hq
    | negotiates hq => rw [hp] at hq; cases hq
    | fills hq => rw [hp] at hq; cases hq
    | fails hq => rw [hp] at hq; cases hq
  | trying hp hnone hl =>
    cases hg with
    | finds hq => exact absurd hq hp
    | linesUp hq => exact absurd hq hp
    | takes => exact .served rfl
    | begins => exact .trying nofun hnone hl
    | negotiates => exact .trying nofun hnone hl
    | fills => exact .served rfl
    | fails => exact .trying nofun hnone (Tries.keeps hl ht.known ht'.known rfl
        fun d => SessionTable.session_leave ..)

end Acquisition

/-! ### A registry that may be cleared -/

/-- What can happen to the sessions of a client. -/
inductive RegistryEvent where
  | among (e : LobbyEvent)
  /-- All endpoints are forgotten, whoever is in line. -/
  | clear

namespace Lobby

variable {p : SessionPolicy} {s : Lobby} {i : Nat} {a : Acquisition}

/-- One event. -/
def pass (p : SessionPolicy) (s : Lobby) : RegistryEvent → Lobby
  | .among e => s.step p e
  | .clear => { s with hub.table := s.hub.table.clear }

/-- What comes of a list of events. -/
def passAll (p : SessionPolicy) (s : Lobby) (events : List RegistryEvent) : Lobby :=
  events.foldl (pass p) s

theorem indexed_step (h : s.table.Indexed) (e : LobbyEvent) : (s.step p e).table.Indexed := by
  cases turn_step p s e with
  | joins _ _ hh =>
    rw [table, hh]
    exact h
  | goes _ _ hg => exact hg.indexed h
  | @leaves _ a _ _ _ hh =>
    rw [table, hh]
    exact a.indexed_abandon h
  | rests _ ht =>
    rw [ht]
    exact h

theorem indexed_pass (h : s.table.Indexed) (e : RegistryEvent) : (s.pass p e).table.Indexed := by
  cases e with
  | among e => exact indexed_step h e
  | clear => exact s.table.indexed_clear

theorem indexed_passAll (h : s.table.Indexed) (events : List RegistryEvent) :
    (s.passAll p events).table.Indexed := by
  induction events generalizing s with
  | nil => exact h
  | cons e events ih => exact ih (indexed_pass h e)

/-- With this event nobody but the given caller takes a step. -/
def AloneIn (i : Nat) (e : LobbyEvent) : Prop := e = .advance i ∨ ∃ link, e = .meanwhile link

/-- A call that is made while nobody else takes a step. -/
theorem tries_after {t : SessionTable} {endpoint : String} (ha : s.caller? i = some a)
    (h : Acquisition.Tries t endpoint a s.table) (ht : s.table.Indexed) {events : List LobbyEvent}
    (halone : ∀ e ∈ events, AloneIn i e) : ∃ a', (s.after p events).caller? i = some a' ∧
      Acquisition.Tries t endpoint a' (s.after p events).table ∧ (s.after p events).table.Indexed := by
  induction events generalizing s a with
  | nil => exact ⟨a, ha, h, ht⟩
  | cons e events ih =>
    obtain ⟨he, hrest⟩ := List.forall_mem_cons.mp halone
    have ht' := indexed_step (p := p) ht e
    cases turn_step p s e with
    | joins hj =>
      rcases he with rfl | ⟨link, rfl⟩ <;> cases hj
    | leaves hj =>
      rcases he with rfl | ⟨link, rfl⟩ <;> cases hj
    | @goes j _ _ hj hb hg hx =>
      obtain rfl : i = j := by
        rcases he with rfl | ⟨link, rfl⟩ <;> cases hj
        rfl
      rw [ha] at hb
      cases hb
      exact ih (by rw [hx, if_pos rfl]) (h.goes hg ht) ht' hrest
    | rests hc htable =>
      exact ih (by rw [caller?_congr hc, ha]) (by rw [htable]; exact h) ht' hrest

/-- What a failed call changes. In every state that a registry can get into, its size is the number of
    the endpoints with a session and of those with a vacant cell. A call for any session of an endpoint
    that is made while nobody else takes a step and that comes to an error leaves every endpoint the
    session that it had, or had not; it makes the endpoint vacant and no other. So the registry is not
    empty after it, and its size is what it was exactly if the endpoint was vacant before the call. -/
theorem failed_call_exact (p : SessionPolicy) (link : Link) (events : List RegistryEvent)
    (context : Context) (endpoint : String) (more : List LobbyEvent) :
    let s := passAll p { hub := { link } } events
    let i := s.callers.length
    let t := (s.step p (.want context (.any endpoint))).after p more
    s.table.size = s.table.served.ncard + s.table.vacant.ncard ∧
    ((∀ e ∈ more, AloneIn i e) → ∀ a err, t.caller? i = some a → a.outcome? = some (.error err) →
      (∀ key, t.table.get? key = s.table.get? key) ∧
      t.table.vacant = insert endpoint s.table.vacant ∧
      t.table.size = t.table.served.ncard + t.table.vacant.ncard ∧ t.table.size ≠ 0 ∧
      (t.table.size = s.table.size ↔ endpoint ∈ s.table.vacant) ∧
      (t.table.size = s.table.size + 1 ↔ endpoint ∉ s.table.vacant)) := by
  intro s i t
  have hnew : (table { hub := { link } }).Indexed := SessionTable.indexed_new
  have hs : s.table.Indexed := indexed_passAll hnew events
  refine ⟨hs.size_eq, fun halone a err ha herr => ?_⟩
  have hcame : (s.step p (.want context (.any endpoint))).caller? i =
      some { context, wish := .any endpoint } := by
    rw [alters_want s { context, wish := .any endpoint } rfl i, if_pos rfl]
  have hentering : Acquisition.Tries s.table endpoint { context, wish := .any endpoint } s.table :=
    .entering rfl rfl rfl
  obtain ⟨b, hb, htries, ht⟩ := tries_after (p := p) hcame hentering hs halone
  obtain rfl : a = b := Option.some.inj (ha.symm.trans hb)
  cases htries with
  | entering hp =>
    rw [Acquisition.outcome?, hp] at herr
    cases herr
  | served ho =>
    rw [herr] at ho
    cases ho
  | trying hp hnone hl =>
    have hvacant : t.table.vacant = insert endpoint s.table.vacant := hl.vacant_eq hnone
    have hsize : t.table.size = t.table.served.ncard + t.table.vacant.ncard := ht.size_eq
    have hpos : 0 < t.table.vacant.ncard :=
      (Set.ncard_pos t.table.finite_vacant).mpr ⟨endpoint, hvacant ▸ Set.mem_insert _ _⟩
    refine ⟨hl.get?_eq, hvacant, hsize, by omega, ?_⟩
    rcases hl.size_cases hs ht hnone with ⟨hmem, hsame⟩ | ⟨hmem, hmore⟩
    · have hsame : t.table.size = s.table.size := hsame
      exact ⟨iff_of_true hsame hmem, iff_of_false (by omega) (not_not_intro hmem)⟩
    · have hmore : t.table.size = s.table.size + 1 := hmore
      exact ⟨iff_of_false (by omega) hmem, iff_of_true hmore hmem⟩

theorem exists_failed
    (h : ((s.caller? i).bind Acquisition.outcome?).map Except.isOk = some false) :
    ∃ a err, s.caller? i = some a ∧ a.outcome? = some (.error err) := by
  obtain ⟨outcome, ho, hfailed⟩ := Option.map_eq_some_iff.mp h
  obtain ⟨a, ha, ho⟩ := Option.bind_eq_some_iff.mp ho
  cases outcome with
  | ok y => cases hfailed
  | error err => exact ⟨a, err, ha, ho⟩

/-- A server that has no interface document. -/
def refusingServer : Server where
  discovery := [⟨.ok ⟨404, []⟩, 0⟩, ⟨.ok ⟨404, []⟩, 0⟩]

/-- Somebody wants a session and goes on until the negotiation has failed. -/
def refusedCall : List LobbyEvent :=
  .want { token := 0 } (.any "http://slurm.test") :: List.replicate 10 (.advance 0)

/-- After a call that has failed the endpoint is vacant, so the next one that fails changes nothing. -/
theorem failed_call_exact_again :
    let s := passAll {} { hub := { link := { server := refusingServer } } } (refusedCall.map .among)
    let t := (s.step {} (.want { token := 0 } (.any "http://slurm.test"))).after {}
      (List.replicate 10 (.advance 1))
    (∃ a err, t.caller? 1 = some a ∧ a.outcome? = some (.error err)) ∧
    "http://slurm.test" ∈ s.table.vacant ∧ t.table.size = s.table.size := by
  intro s t
  have hlength : s.callers.length = 1 := by decide +kernel
  obtain ⟨a, err, ha, ho⟩ : ∃ a err, t.caller? 1 = some a ∧ a.outcome? = some (.error err) :=
    exists_failed (by decide +kernel)
  have hvacant : "http://slurm.test" ∈ s.table.vacant := by
    have hfind : s.table.find? "http://slurm.test" = some 0 := by decide +kernel
    have hget : s.table.get? "http://slurm.test" = none := by decide +kernel
    exact ⟨by rw [hfind]; nofun, hget⟩
  have halone : ∀ e ∈ List.replicate 10 (LobbyEvent.advance 1), AloneIn s.callers.length e := by
    intro e he
    rw [hlength]
    exact Or.inl (List.eq_of_mem_replicate he)
  have hexact := (failed_call_exact {} { server := refusingServer } (refusedCall.map .among)
    { token := 0 } "http://slurm.test" (List.replicate 10 (.advance 1))).2 halone a err
    (by rw [hlength]; exact ha) ho
  exact ⟨⟨a, err, ha, ho⟩, hvacant, hexact.2.2.2.2.1.mpr hvacant⟩

/-- The first call for an endpoint fails, and the registry, which was empty, has one endpoint more than
    have a session. -/
theorem failed_call_leaves_cell :
    let s : Lobby := { hub := { link := { server := refusingServer } } }
    let t := s.after {} refusedCall
    (∃ a err, t.caller? 0 = some a ∧ a.outcome? = some (.error err)) ∧
    s.table.size = 0 ∧ t.table.size = 1 ∧ ∀ key, t.table.get? key = none := by
  intro s t
  have hcells : ∀ x ∈ t.table.cells, x.session = none := by decide +kernel
  refine ⟨exists_failed (by decide +kernel), rfl, by decide +kernel, fun key => ?_⟩
  rw [SessionTable.get?, Option.bind_eq_none_iff]
  intro c _
  rw [Option.bind_eq_none_iff]
  intro x hx
  exact hcells x (List.mem_of_getElem? hx)

end Lobby

end SlurmLink

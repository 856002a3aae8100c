import Mathlib.Order.Bounds.Basic
import SlurmLink.Proofs.ContextDone

/-!
Trees of contexts. A context is made on its own, or from another one: a copy of it, the same with a deadline,
or a child, which has a token of its own:

              root
          copy │ deadline
      ┌────────┴────────┐
    child             child        each with a token below that of the root
      │ deadline
    bounded                        the token of the child

Whatever happens to a tree, its members keep what they were made with (`Sound`), so tokens are above one
another as members are derived from one another (`above_iff`), and two members have one token just if they
come from one member without a child between (`token_eq_iff`). So a cancellation reaches those that share
the token and what is derived from them, and the deadline of a member is the least of those set on the way
to it (`deadline_spec`).
-/

namespace SlurmLink

/-- How a context was made. -/
inductive Origin where
  /-- On its own. -/
  | root
  /-- As a copy of another. -/
  | clone (source : Nat)
  /-- As a child of another. -/
  | child (source : Nat)
  /-- From another by setting a deadline. -/
  | bounded (source deadline : Nat)
  deriving DecidableEq, Repr

namespace Origin

/-- What a context was made from. -/
def source? : Origin → Option Nat
  | .root => none
  | .clone p => some p
  | .child p => some p
  | .bounded p _ => some p

/-- The context was made with a token of its own. -/
def ownsToken : Origin → Bool
  | .root | .child _ => true
  | _ => false

/-- The deadline that was set when a context was made. -/
def deadline? : Origin → Option Nat
  | .bounded _ d => some d
  | _ => none

end Origin

/-- A context and how it was made. -/
structure Member where
  context : Context
  origin : Origin

/-- The contexts that were made on a link, by number. -/
structure Grove where
  link : Link := {}
  members : List Member := []

/-- What can happen to contexts. -/
inductive GroveEvent where
  | root
  | clone (i : Nat)
  | child (i : Nat)
  | withDeadline (i deadline : Nat)
  | withTimeout (i timeout : Nat)
  | cancel (i : Nat)
  /-- A cancellation is planned. -/
  | cancelAfter (i duration : Nat)
  /-- The clock moves on. -/
  | pass (duration : Nat)

namespace Grove

/-- Adds a context that was made. -/
def add (g : Grove) (origin : Origin) (made : Context × Link) : Grove where
  link := made.2
  members := g.members ++ [⟨made.1, origin⟩]

/-- Does something with a context, if there is one of this number. -/
def on (g : Grove) (i : Nat) (f : Context → Grove) : Grove :=
  match g.members[i]? with
  | some m => f m.context
  | none => g

def step (g : Grove) : GroveEvent → Grove
  | .root => g.add .root g.link.newContext
  | .clone i => g.on i fun c => g.add (.clone i) (c, g.link)
  | .child i => g.on i fun c => g.add (.child i) (g.link.childContext c)
  | .withDeadline i d => g.on i fun c => g.add (.bounded i d) (c.withDeadline d, g.link)
  | .withTimeout i t =>
    g.on i fun c => g.add (.bounded i (g.link.now + t)) (c.withTimeout g.link.now t, g.link)
  | .cancel i => g.on i fun c => { g with link := g.link.cancel c }
  | .cancelAfter i t => g.on i fun c => { g with link := g.link.cancelAfter c t }
  | .pass t => { g with link := g.link.pass t }

/-- What a run of events leads to. -/
def after (g : Grove) (events : List GroveEvent) : Grove := events.foldl step g

/-- No contexts, at an instant. -/
def start (now : Nat) : Grove where
  link := { now }

/-- The token that each token was derived from. -/
def parents (g : Grove) : List (Option Nat) := g.link.tokens.cells.map Token.parent

variable {g g' : Grove} {i j k p a d : Nat} {m n : Member}

/-! ### Members keep what they were made with -/

/-- What a member has from its source. -/
def Made (g : Grove) (m : Member) : Prop :=
  match m.origin with
  | .root => m.context.deadline = none ∧ g.parents[m.context.token]? = some none
  | .clone p => ∃ s, g.members[p]? = some s ∧ m.context = s.context
  | .child p => ∃ s, g.members[p]? = some s ∧ m.context.deadline = s.context.deadline ∧
      g.parents[m.context.token]? = some (some s.context.token)
  | .bounded p d => ∃ s, g.members[p]? = some s ∧ m.context = s.context.withDeadline d

/-- Sources come before what was made from them, tokens before those derived from them, and no two members
    were made with one token of their own. -/
structure Sound (g : Grove) : Prop where
  source_lt : ∀ (i : Nat) (m : Member), g.members[i]? = some m → ∀ p, m.origin.source? = some p → p < i
  made : ∀ (i : Nat) (m : Member), g.members[i]? = some m → g.Made m
  parent_lt : ∀ id p : Nat, g.parents[id]? = some (some p) → p < id
  own : ∀ (i j : Nat) (m n : Member), g.members[i]? = some m → g.members[j]? = some n → m.origin.ownsToken = true →
    n.origin.ownsToken = true → m.context.token = n.context.token → i = j

theorem sound_start (now : Nat) : (start now).Sound where
  source_lt _ _ h := by cases h
  made _ _ h := by cases h
  parent_lt _ _ h := by cases h
  own _ _ _ _ h := by cases h

theorem getElem?_of_extends {α : Type} {xs ys : List α} {x : α} (h : xs <+: ys) (hx : xs[i]? = some x) :
    ys[i]? = some x := by
  obtain ⟨rest, rfl⟩ := h
  rw [List.getElem?_append_left (List.getElem?_eq_some_iff.mp hx).1, hx]

/-- What a member has from its source stays when tokens and members are added. -/
theorem Made.mono (h : g.Made m) (hmembers : g.members <+: g'.members) (hparents : g.parents <+: g'.parents) :
    g'.Made m := by
  rw [Made] at h ⊢
  cases horigin : m.origin with
  | root =>
    rw [horigin] at h
    exact ⟨h.1, getElem?_of_extends hparents h.2⟩
  | clone p =>
    rw [horigin] at h
    obtain ⟨s, hs, heq⟩ := h
    exact ⟨s, getElem?_of_extends hmembers hs, heq⟩
  | child p =>
    rw [horigin] at h
    obtain ⟨s, hs, hd, ht⟩ := h
    exact ⟨s, getElem?_of_extends hmembers hs, hd, getElem?_of_extends hparents ht⟩
  | bounded p d =>
    rw [horigin] at h
    obtain ⟨s, hs, heq⟩ := h
    exact ⟨s, getElem?_of_extends hmembers hs, heq⟩

/-- The token of a member is one of the link's. -/
theorem Sound.token_lt (h : g.Sound) (hm : g.members[i]? = some m) :
    m.context.token < g.parents.length := by
  induction i using Nat.strongRecOn generalizing m with
  | _ i ih =>
    have hsource := h.source_lt i m hm
    have hmade := h.made i m hm
    rw [Made] at hmade
    cases horigin : m.origin with
    | root =>
      rw [horigin] at hmade
      exact (List.getElem?_eq_some_iff.mp hmade.2).1
    | clone p =>
      rw [horigin] at hmade hsource
      obtain ⟨s, hs, heq⟩ := hmade
      rw [heq]
      exact ih p (hsource p rfl) hs
    | child p =>
      rw [horigin] at hmade
      obtain ⟨s, hs, -, ht⟩ := hmade
      exact (List.getElem?_eq_some_iff.mp ht).1
    | bounded p d =>
      rw [horigin] at hmade hsource
      obtain ⟨s, hs, heq⟩ := hmade
      rw [heq]
      exact ih p (hsource p rfl) hs

/-- What changes no tokens but for which of them are cancelled leaves the members as they were. -/
theorem Sound.onLink (h : g.Sound) {l : Link} (hl : l.tokens.cells.map Token.parent = g.parents) :
    ({ g with link := l } : Grove).Sound where
  source_lt := h.source_lt
  made i m hm := (h.made i m hm).mono (List.prefix_refl _) (hl ▸ List.prefix_refl _)
  parent_lt id p hp := h.parent_lt id p (hl ▸ hp)
  own := h.own

theorem getElem?_add {origin : Origin} {made : Context × Link}
    (hm : (g.add origin made).members[i]? = some m) :
    g.members[i]? = some m ∨ i = g.members.length ∧ m = ⟨made.1, origin⟩ := by
  rw [add, List.getElem?_append] at hm
  split at hm
  · exact Or.inl hm
  · next hge =>
    obtain ⟨hlt, heq⟩ := List.getElem?_eq_some_iff.mp hm
    rw [List.length_singleton] at hlt
    refine Or.inr ⟨by omega, ?_⟩
    rw [← heq, List.getElem_singleton]

/-- A member is added whose token, if it has one of its own, is new. -/
theorem Sound.add (h : g.Sound) {origin : Origin} {made : Context × Link}
    (hext : g.parents <+: (g.add origin made).parents)
    (hsource : ∀ p : Nat, origin.source? = some p → p < g.members.length)
    (hmade : (g.add origin made).Made ⟨made.1, origin⟩)
    (hparent : ∀ id p : Nat, (g.add origin made).parents[id]? = some (some p) → p < id)
    (hnew : origin.ownsToken = true → made.1.token = g.parents.length) : (g.add origin made).Sound where
  source_lt i m hm := by
    rcases getElem?_add hm with hm | ⟨rfl, rfl⟩
    · exact h.source_lt i m hm
    · exact hsource
  made i m hm := by
    rcases getElem?_add hm with hm | ⟨-, rfl⟩
    · exact (h.made i m hm).mono (List.prefix_append ..) hext
    · exact hmade
  parent_lt := hparent
  own i j m n hm hn hmo hno heq := by
    rcases getElem?_add hm with hm | ⟨rfl, rfl⟩
    · rcases getElem?_add hn with hn | ⟨rfl, rfl⟩
      · exact h.own i j m n hm hn hmo hno heq
      · have hlt := h.token_lt hm
        rw [heq] at hlt
        exact absurd (hnew hno) (Nat.ne_of_lt hlt)
    · rcases getElem?_add hn with hn | ⟨rfl, rfl⟩
      · have hlt := h.token_lt hn
        rw [← heq] at hlt
        exact absurd (hnew hmo) (Nat.ne_of_lt hlt)
      · rfl

/-- A token is added that is derived from an earlier one, or from none. -/
theorem Sound.parent_lt_append (h : g.Sound) {parent : Option Nat}
    (hlt : ∀ p : Nat, parent = some p → p < g.parents.length) (id p : Nat)
    (hp : (g.parents ++ [parent])[id]? = some (some p)) : p < id := by
  rw [List.getElem?_append] at hp
  split at hp
  · exact h.parent_lt id p hp
  · next hge =>
    obtain ⟨hid, heq⟩ := List.getElem?_eq_some_iff.mp hp
    rw [List.getElem_singleton] at heq
    have := hlt p heq
    omega

theorem Sound.root (h : g.Sound) : (g.step .root).Sound := by
  have hparents : (g.step .root).parents = g.parents ++ [none] := by
    simp [step, Grove.add, Grove.parents, Link.newContext, Tokens.fresh]
  have htoken : (g.link.newContext).1.token = g.parents.length := by
    simp [Grove.parents, Link.newContext, Tokens.fresh]
  refine h.add ?_ (fun p hp => by cases hp) ⟨rfl, ?_⟩ ?_ fun _ => htoken
  · exact hparents ▸ List.prefix_append ..
  · show (g.step .root).parents[(g.link.newContext).1.token]? = some none
    rw [hparents, htoken, List.getElem?_concat_length]
  · show ∀ id p, (g.step .root).parents[id]? = some (some p) → p < id
    rw [hparents]
    exact h.parent_lt_append fun p hp => by cases hp

theorem Sound.child (h : g.Sound) (hm : g.members[i]? = some m) :
    (g.add (.child i) (g.link.childContext m.context)).Sound := by
  have hparents : (g.add (.child i) (g.link.childContext m.context)).parents =
      g.parents ++ [some m.context.token] := by
    simp [Grove.add, Grove.parents, Link.childContext, Context.child, Tokens.derive]
  have htoken : (g.link.childContext m.context).1.token = g.parents.length := by
    simp [Grove.parents, Link.childContext, Context.child, Tokens.derive]
  have hsource : i < g.members.length := (List.getElem?_eq_some_iff.mp hm).1
  refine h.add ?_ (fun p hp => by cases hp; exact hsource) ?_ ?_ fun _ => htoken
  · exact hparents ▸ List.prefix_append ..
  · refine ⟨m, getElem?_of_extends (List.prefix_append ..) hm, rfl, ?_⟩
    rw [hparents, htoken, List.getElem?_concat_length]
  · rw [hparents]
    exact h.parent_lt_append fun p hp => by cases hp; exact h.token_lt hm

/-- A member is added with the token of another one. -/
theorem Sound.share (h : g.Sound) (hm : g.members[i]? = some m) {origin : Origin} {c : Context}
    (horigin : origin.source? = some i) (hshare : origin.ownsToken = false)
    (hmade : (g.add origin (c, g.link)).Made ⟨c, origin⟩) : (g.add origin (c, g.link)).Sound := by
  have hsource : i < g.members.length := (List.getElem?_eq_some_iff.mp hm).1
  refine h.add (List.prefix_refl _) (fun p hp => ?_) hmade h.parent_lt fun hown => ?_
  · cases horigin.symm.trans hp
    exact hsource
  · rw [hshare] at hown
    cases hown

theorem parents_cancel (l : Link) (c : Context) :
    (l.cancel c).tokens.cells.map Token.parent = l.tokens.cells.map Token.parent := by
  refine List.ext_getElem? fun id => ?_
  rw [List.getElem?_map, List.getElem?_map, Link.cancel, Tokens.getElem?_cancel]
  cases l.tokens.cells[id]? with
  | none => rfl
  | some t =>
    rw [Option.map_some, Option.map_some, Option.map_some]
    split <;> rfl

theorem parents_foldl_cancel : ∀ (cs : List Cancellation) (ts : Tokens),
    (cs.foldl (fun ts c => ts.cancel c.token) ts).cells.map Token.parent = ts.cells.map Token.parent
  | [], _ => rfl
  | c :: cs, ts => (parents_foldl_cancel cs _).trans (parents_cancel { tokens := ts } ⟨c.token, none⟩)

theorem Sound.on (h : g.Sound) {f : Context → Grove}
    (hf : ∀ m, g.members[i]? = some m → (f m.context).Sound) : (g.on i f).Sound := by
  rw [Grove.on]
  cases hm : g.members[i]? with
  | none => exact h
  | some m => exact hf m hm

theorem Sound.step (h : g.Sound) (e : GroveEvent) : (g.step e).Sound := by
  have hkeep : ∀ {i : Nat} {m : Member} (origin : Origin) (made : Context × Link),
      g.members[i]? = some m → (g.add origin made).members[i]? = some m :=
    fun _ _ hm => getElem?_of_extends (List.prefix_append ..) hm
  cases e with
  | root => exact h.root
  | clone i =>
    rw [Grove.step]
    exact h.on fun m hm => h.share hm rfl rfl ⟨m, hkeep (.clone i) _ hm, rfl⟩
  | child i =>
    rw [Grove.step]
    exact h.on fun m hm => h.child hm
  | withDeadline i d =>
    rw [Grove.step]
    exact h.on fun m hm => h.share hm rfl rfl ⟨m, hkeep (.bounded i d) _ hm, rfl⟩
  | withTimeout i t =>
    rw [Grove.step]
    exact h.on fun m hm => h.share hm rfl rfl ⟨m, hkeep (.bounded i _) _ hm, rfl⟩
  | cancel i =>
    rw [Grove.step]
    exact h.on fun m _ => h.onLink (parents_cancel g.link m.context)
  | cancelAfter i t =>
    rw [Grove.step]
    exact h.on fun m _ => h.onLink rfl
  | pass t => exact h.onLink (parents_foldl_cancel _ g.link.tokens)

theorem Sound.after : ∀ (events : List GroveEvent) {g : Grove}, g.Sound → (g.after events).Sound
  | [], _, h => h
  | e :: events, _, h => Sound.after events (h.step e)

/-- What was made from something has its token or one derived from it, and its deadline or an earlier one. -/
theorem Sound.source (h : g.Sound) (hm : g.members[i]? = some m) (hp : m.origin.source? = some p) :
    ∃ s, g.members[p]? = some s ∧ p < i ∧
      m.context.deadline = earlier s.context.deadline m.origin.deadline? ∧
      (m.origin.ownsToken = false → m.context.token = s.context.token) ∧
      (m.origin.ownsToken = true → g.parents[m.context.token]? = some (some s.context.token)) := by
  have hlt := h.source_lt i m hm p hp
  have hmade := h.made i m hm
  have hearlier : ∀ o : Option Nat, earlier o none = o := fun o => by cases o <;> rfl
  rw [Made] at hmade
  cases horigin : m.origin with
  | root =>
    rw [horigin] at hp
    cases hp
  | clone q =>
    rw [horigin] at hp hmade
    cases hp
    obtain ⟨s, hs, heq⟩ := hmade
    rw [heq]
    exact ⟨s, hs, hlt, (hearlier _).symm, fun _ => rfl, fun ho => (by cases ho)⟩
  | child q =>
    rw [horigin] at hp hmade
    cases hp
    obtain ⟨s, hs, hd, ht⟩ := hmade
    exact ⟨s, hs, hlt, hd.trans (hearlier _).symm, fun ho => (by cases ho), fun _ => ht⟩
  | bounded q d =>
    rw [horigin] at hp hmade
    cases hp
    obtain ⟨s, hs, heq⟩ := hmade
    refine ⟨s, hs, hlt, ?_, fun _ => by rw [heq]; rfl, fun ho => (by cases ho)⟩
    rw [heq, Context.withDeadline, Origin.deadline?]
    cases hd : s.context.deadline with
    | none => rfl
    | some e =>
      simp only [earlier, Option.some.injEq]
      split <;> omega

/-- What was made on its own has a token that is derived from no other, and no deadline. -/
theorem Sound.root_spec (h : g.Sound) (hm : g.members[i]? = some m) (hp : m.origin.source? = none) :
    m.context.deadline = none ∧ g.parents[m.context.token]? = some none ∧ m.origin = .root := by
  have hmade := h.made i m hm
  rw [Made] at hmade
  cases horigin : m.origin with
  | root =>
    rw [horigin] at hmade
    exact ⟨hmade.1, hmade.2, rfl⟩
  | _ =>
    rw [horigin] at hp
    cases hp

/-! ### The way to a member -/

/-- The member `j` is the member `i`, or it was derived from it. -/
inductive Descends (g : Grove) (i : Nat) : Nat → Prop where
  | self : Descends g i i
  | made {j p : Nat} {m : Member} (hm : g.members[j]? = some m) (hp : m.origin.source? = some p)
      (h : Descends g i p) : Descends g i j

/-- The same, but with no child on the way. -/
inductive Keeps (g : Grove) (i : Nat) : Nat → Prop where
  | self : Keeps g i i
  | made {j p : Nat} {m : Member} (hm : g.members[j]? = some m) (hp : m.origin.source? = some p)
      (hown : m.origin.ownsToken = false) (h : Keeps g i p) : Keeps g i j

/-- Two members are copies of one, with or without deadlines. -/
def Shares (g : Grove) (i j : Nat) : Prop := ∃ k, g.Keeps k i ∧ g.Keeps k j

/-- A member shares the token of another one, or was derived from one that does. -/
def Affects (g : Grove) (i j : Nat) : Prop := ∃ k, g.Shares i k ∧ g.Descends k j

/-- The deadlines that were set on the way to a member. -/
def deadlinesOn (g : Grove) (j : Nat) : Set Nat :=
  {d | ∃ k m, g.Descends k j ∧ g.members[k]? = some m ∧ m.origin.deadline? = some d}

theorem Descends.trans (h : g.Descends i j) (hk : g.Descends j k) : g.Descends i k := by
  induction hk with
  | self => exact h
  | made hm hp _ ih => exact .made hm hp ih

theorem descends_iff (hm : g.members[j]? = some m) :
    g.Descends i j ↔ i = j ∨ ∃ p, m.origin.source? = some p ∧ g.Descends i p := by
  constructor
  · rintro (_ | ⟨hn, hp, h⟩)
    · exact Or.inl rfl
    · cases hm.symm.trans hn
      exact Or.inr ⟨_, hp, h⟩
  · rintro (rfl | ⟨p, hp, h⟩)
    · exact .self
    · exact .made hm hp h

theorem Descends.mono (h : g.Descends i j) (hmembers : g.members <+: g'.members) : g'.Descends i j := by
  induction h with
  | self => exact .self
  | made hm hp _ ih => exact .made (getElem?_of_extends hmembers hm) hp ih

theorem Sound.exists_member (h : g.Sound) (hd : g.Descends i j) (hm : g.members[j]? = some m) :
    ∃ n, g.members[i]? = some n := by
  induction hd generalizing m with
  | self => exact ⟨m, hm⟩
  | made hn hp _ ih =>
    obtain ⟨s, hs, -⟩ := h.source hn hp
    exact ih hs

/-! ### Tokens -/

theorem above_self (h : a < g.parents.length) : g.link.tokens.Above a a := by
  rw [parents, List.length_map] at h
  exact .self (List.getElem?_eq_getElem h)

theorem above_of_parent (hlt : p < k) (h : g.parents[k]? = some (some p)) (ha : g.link.tokens.Above a p) :
    g.link.tokens.Above a k := by
  rw [parents, List.getElem?_map] at h
  obtain ⟨t, ht, hp⟩ := Option.map_eq_some_iff.mp h
  exact .derived ht hp hlt ha

theorem above_cases (h : g.link.tokens.Above a k) :
    a = k ∨ ∃ p, g.parents[k]? = some (some p) ∧ g.link.tokens.Above a p := by
  cases h with
  | self => exact Or.inl rfl
  | derived ht hp hlt ha =>
    refine Or.inr ⟨_, ?_, ha⟩
    rw [parents, List.getElem?_map, ht, Option.map_some, hp]

theorem above_le (h : g.link.tokens.Above a k) : a ≤ k := by
  induction h with
  | self => exact Nat.le_refl _
  | derived _ _ hlt _ ih => omega

/-- A token above that of a member is the token of one that it is derived from. -/
theorem Sound.exists_of_above (h : g.Sound) (hm : g.members[j]? = some m)
    (ha : g.link.tokens.Above a m.context.token) :
    ∃ k n, g.Descends k j ∧ g.members[k]? = some n ∧ n.context.token = a := by
  induction j using Nat.strongRecOn generalizing m with
  | _ j ih =>
    cases hp : m.origin.source? with
    | none =>
      rcases above_cases ha with rfl | ⟨q, hq, -⟩
      · exact ⟨j, m, .self, hm, rfl⟩
      · rw [(h.root_spec hm hp).2.1] at hq
        cases hq
    | some p =>
      obtain ⟨s, hs, hlt, -, hshare, hown⟩ := h.source hm hp
      cases hkind : m.origin.ownsToken with
      | false =>
        rw [hshare hkind] at ha
        obtain ⟨k, n, hd, hn, he⟩ := ih p hlt hs ha
        exact ⟨k, n, .made hm hp hd, hn, he⟩
      | true =>
        rcases above_cases ha with rfl | ⟨q, hq, ha⟩
        · exact ⟨j, m, .self, hm, rfl⟩
        · cases (hown hkind).symm.trans hq
          obtain ⟨k, n, hd, hn, he⟩ := ih p hlt hs ha
          exact ⟨k, n, .made hm hp hd, hn, he⟩

/-- The tokens above that of a member are those of the members that it is derived from. -/
theorem Sound.above_iff (h : g.Sound) (hm : g.members[j]? = some m) :
    g.link.tokens.Above a m.context.token ↔
      ∃ k n, g.Descends k j ∧ g.members[k]? = some n ∧ n.context.token = a := by
  refine ⟨h.exists_of_above hm, ?_⟩
  rintro ⟨k, n, hd, hn, rfl⟩
  induction hd generalizing m with
  | self =>
    cases hm.symm.trans hn
    exact above_self (h.token_lt hm)
  | @made _ _ m' hm' hp _ ih =>
    cases hm.symm.trans hm'
    obtain ⟨s, hs, -, -, hshare, hown⟩ := h.source hm hp
    cases hkind : m'.origin.ownsToken with
    | false =>
      rw [hshare hkind]
      exact ih hs
    | true => exact above_of_parent (h.parent_lt _ _ (hown hkind)) (hown hkind) (ih hs)

theorem Sound.above_of_descends (h : g.Sound) (hm : g.members[i]? = some m) (hn : g.members[j]? = some n)
    (hd : g.Descends i j) (ha : g.link.tokens.Above a m.context.token) :
    g.link.tokens.Above a n.context.token := by
  obtain ⟨k, s, hk, hs, heq⟩ := (h.above_iff hm).mp ha
  exact (h.above_iff hn).mpr ⟨k, s, hk.trans hd, hs, heq⟩

/-- Where there is no child on the way, the token stays the same. -/
theorem Sound.token_of_keeps (h : g.Sound) (hk : g.Keeps i j) (hm : g.members[j]? = some m) :
    ∃ n, g.members[i]? = some n ∧ n.context.token = m.context.token := by
  induction hk generalizing m with
  | self => exact ⟨m, hm, rfl⟩
  | made hm' hp hown _ ih =>
    cases hm.symm.trans hm'
    obtain ⟨s, hs, -, -, hshare, -⟩ := h.source hm hp
    rw [hshare hown]
    exact ih hs

/-- The token of a member is the own one of a member from which it comes without a child between. -/
theorem Sound.exists_owner (h : g.Sound) (hm : g.members[j]? = some m) :
    ∃ k n, g.members[k]? = some n ∧ n.origin.ownsToken = true ∧ g.Keeps k j ∧
      n.context.token = m.context.token := by
  induction j using Nat.strongRecOn generalizing m with
  | _ j ih =>
    cases hkind : m.origin.ownsToken with
    | true => exact ⟨j, m, hm, hkind, .self, rfl⟩
    | false =>
      cases hp : m.origin.source? with
      | none =>
        rw [(h.root_spec hm hp).2.2] at hkind
        cases hkind
      | some p =>
        obtain ⟨s, hs, hlt, -, hshare, -⟩ := h.source hm hp
        obtain ⟨k, n, hn, hown, hkeep, heq⟩ := ih p hlt hs
        exact ⟨k, n, hn, hown, .made hm hp hkind hkeep, heq.trans (hshare hkind).symm⟩

theorem Sound.token_eq_iff (h : g.Sound) (hm : g.members[i]? = some m) (hn : g.members[j]? = some n) :
    m.context.token = n.context.token ↔ g.Shares i j := by
  constructor
  · intro heq
    obtain ⟨k, s, hs, hown, hkeep, hk⟩ := h.exists_owner hm
    obtain ⟨k', s', hs', hown', hkeep', hk'⟩ := h.exists_owner hn
    obtain rfl := h.own k k' s s' hs hs' hown hown' (hk.trans (heq.trans hk'.symm))
    exact ⟨k, hkeep, hkeep'⟩
  · rintro ⟨k, hi, hj⟩
    obtain ⟨s, hs, hsi⟩ := h.token_of_keeps hi hm
    obtain ⟨s', hs', hsj⟩ := h.token_of_keeps hj hn
    cases hs.symm.trans hs'
    exact hsi.symm.trans hsj

/-- The token of a member is above that of another one just if the other one shares it, or was derived from
    one that does. -/
theorem Sound.above_token_iff (h : g.Sound) (hm : g.members[i]? = some m) (hn : g.members[j]? = some n) :
    g.link.tokens.Above m.context.token n.context.token ↔ g.Affects i j := by
  rw [h.above_iff hn]
  constructor
  · rintro ⟨k, s, hd, hs, heq⟩
    exact ⟨k, (h.token_eq_iff hm hs).mp heq.symm, hd⟩
  · rintro ⟨k, hshare, hd⟩
    obtain ⟨s, hs⟩ := h.exists_member hd hn
    exact ⟨k, s, hd, hs, ((h.token_eq_iff hm hs).mpr hshare).symm⟩

/-- A child is not above what it was made from, nor above another child of it. -/
theorem Sound.child_spec (h : g.Sound) (hm : g.members[i]? = some m) (hc : m.origin = .child p) :
    ¬ g.Affects i p ∧
      ∀ (j : Nat) (n : Member), g.members[j]? = some n → n.origin = .child p → j ≠ i →
        ¬ g.Affects i j := by
  have hsource : ∀ {o : Origin}, o = .child p → o.source? = some p ∧ o.ownsToken = true := by
    rintro _ rfl
    exact ⟨rfl, rfl⟩
  obtain ⟨s, hs, -, -, -, hown⟩ := h.source hm (hsource hc).1
  have hparent := hown (hsource hc).2
  have hlt := h.parent_lt _ _ hparent
  have hnot : ¬ g.link.tokens.Above m.context.token s.context.token := fun ha => by
    have := above_le ha
    omega
  refine ⟨fun ha => hnot ((h.above_token_iff hm hs).mpr ha), fun j n hn hcn hne ha => ?_⟩
  rcases above_cases ((h.above_token_iff hm hn).mpr ha) with heq | ⟨q, hq, ha⟩
  · exact hne (h.own i j m n hm hn (hsource hc).2 (hsource hcn).2 heq).symm
  · obtain ⟨s', hs', -, -, -, hown'⟩ := h.source hn (hsource hcn).1
    cases hs.symm.trans hs'
    cases (hown' (hsource hcn).2).symm.trans hq
    exact hnot ha

/-! ### Deadlines -/

/-- A deadline is the least of some instants, and there is one just if there are any. -/
structure Earliest (o : Option Nat) (instants : Set Nat) : Prop where
  isLeast : ∀ d, o = some d → IsLeast instants d
  isEmpty : o = none → instants = ∅

/-- A further deadline is set. -/
theorem Earliest.union {o : Option Nat} {instants : Set Nat} (h : Earliest o instants) (added : Option Nat) :
    Earliest (earlier o added) (instants ∪ {d | added = some d}) := by
  cases added with
  | none =>
    have hsame : earlier o none = o := by cases o <;> rfl
    have hno : {d : Nat | none = some d} = ∅ := by simp
    rw [hsame, hno, Set.union_empty]
    exact h
  | some e =>
    have hone : {d : Nat | some e = some d} = {e} := by
      ext d
      simp [eq_comm]
    rw [hone]
    cases o with
    | none =>
      rw [h.isEmpty rfl, Set.empty_union]
      refine ⟨fun d he => ?_, fun he => (by cases he)⟩
      cases he
      exact isLeast_singleton
    | some d =>
      refine ⟨fun d' he => ?_, fun he => (by cases he)⟩
      cases he
      exact (h.isLeast d rfl).union isLeast_singleton

theorem deadlinesOn_of_source (hm : g.members[j]? = some m) (hp : m.origin.source? = some p) :
    g.deadlinesOn j = g.deadlinesOn p ∪ {d | m.origin.deadline? = some d} := by
  ext d
  constructor
  · rintro ⟨k, n, hd, hn, he⟩
    rcases (descends_iff hm).mp hd with rfl | ⟨q, hq, hd⟩
    · cases hm.symm.trans hn
      exact Or.inr he
    · cases hp.symm.trans hq
      exact Or.inl ⟨k, n, hd, hn, he⟩
  · rintro (⟨k, n, hd, hn, he⟩ | he)
    · exact ⟨k, n, .made hm hp hd, hn, he⟩
    · exact ⟨j, m, .self, hm, he⟩

/-- The deadline of a member is the least of those that were set on the way to it. -/
theorem Sound.deadline_spec (h : g.Sound) (hm : g.members[j]? = some m) :
    Earliest m.context.deadline (g.deadlinesOn j) := by
  induction j using Nat.strongRecOn generalizing m with
  | _ j ih =>
    cases hp : m.origin.source? with
    | none =>
      obtain ⟨hd, -, horigin⟩ := h.root_spec hm hp
      have hempty : g.deadlinesOn j = ∅ := by
        refine Set.eq_empty_of_forall_notMem fun d => ?_
        rintro ⟨k, n, hdesc, hn, he⟩
        rcases (descends_iff hm).mp hdesc with rfl | ⟨q, hq, -⟩
        · cases hm.symm.trans hn
          rw [horigin] at he
          cases he
        · cases hp.symm.trans hq
      rw [hd, hempty]
      exact ⟨fun d he => (by cases he), fun _ => rfl⟩
    | some p =>
      obtain ⟨s, hs, hlt, hd, -⟩ := h.source hm hp
      rw [hd, deadlinesOn_of_source hm hp]
      exact (ih p hlt hs).union _

/-- What is derived from a member with a deadline has one, and no later. -/
theorem Sound.deadline_of_descends (h : g.Sound) (hm : g.members[i]? = some m) (hn : g.members[j]? = some n)
    (hdesc : g.Descends i j) (hd : m.context.deadline = some d) : ∃ e, n.context.deadline = some e ∧ e ≤ d := by
  obtain ⟨k, s, hk, hs, hset⟩ := ((h.deadline_spec hm).isLeast d hd).1
  have hon : d ∈ g.deadlinesOn j := ⟨k, s, hk.trans hdesc, hs, hset⟩
  cases hnd : n.context.deadline with
  | none =>
    rw [(h.deadline_spec hn).isEmpty hnd] at hon
    cases hon
  | some e => exact ⟨e, rfl, ((h.deadline_spec hn).isLeast e hnd).2 hon⟩

end Grove

end SlurmLink

import SlurmLink.Command.Basic
import SlurmLink.Proofs.Reading

/-!
The addresses of commands. An address has the endpoint's path, the plugin, the version, and then what
became of the names:

    endpoint                 the path without an empty segment at its end
    plugin, version          one segment each
    name, if it is plain     one segment that stands for the name
    name, if it is not       something else

`names_exact` says that the last two lines are all there is, when the endpoint's path is not `//`. Plain
names never share an address, and each of them has another name that shares its address and is not
plain, as `alias_of_tab` shows of a node.
-/

namespace SlurmLink

namespace Url

/-- The segments of a path without an empty one at its end. -/
def stem (path : List String) : List String :=
  if path.getLast? = some "" then path.dropLast else path

/-- The segments after which others are added. -/
def root (path : List String) : List String :=
  if popIfEmpty path = [""] then [] else popIfEmpty path

theorem root_eq_stem : ∀ {path : List String}, path ≠ ["", ""] → root path = stem path
  | [], _ => rfl
  | [t], _ => by
    have hpop : popIfEmpty [t] = [t] := rfl
    by_cases ht : t = ""
    · subst ht; rfl
    · simp [root, stem, hpop, ht]
  | t :: t' :: rest, h => by
    by_cases hlast : (t :: t' :: rest).getLast? = some ""
    · have hpop : popIfEmpty (t :: t' :: rest) = (t :: t' :: rest).dropLast := by
        rw [popIfEmpty, if_pos ⟨by simp, hlast⟩]
      have hdrop : (t :: t' :: rest).dropLast ≠ [""] := by
        intro hdrop
        have hall := List.dropLast_append_getLast? _ hlast
        rw [hdrop] at hall
        exact h hall.symm
      rw [root, stem, hpop, if_neg hdrop, if_pos hlast]
    · have hpop : popIfEmpty (t :: t' :: rest) = t :: t' :: rest := by
        rw [popIfEmpty, if_neg fun hc => hlast hc.2]
      rw [root, stem, hpop, if_neg (by simp), if_neg hlast]

/-- A path of two empty segments loses both of them. -/
theorem length_root_lt_stem : (root ["", ""]).length < (stem ["", ""]).length := by decide

theorem whole_popIfEmpty {path : List String} (hw : ∀ t ∈ path, Whole t) :
    ∀ t ∈ popIfEmpty path, Whole t := by
  rw [popIfEmpty]
  split
  · exact fun t ht => hw t ((List.dropLast_sublist path).subset ht)
  · exact hw

/-- A path stays whole when a text is added. -/
theorem whole_pushSegment {path : List String} (s : String) (hw : ∀ t ∈ path, Whole t) :
    ∀ t ∈ pushSegment path s, Whole t := by
  have hempty : ∀ base : List String, (∀ t ∈ base, Whole t) → ∀ t ∈ base ++ [""], Whole t := by
    intro base hbase t ht
    rcases List.mem_append.mp ht with ht | ht
    · exact hbase t ht
    · exact List.mem_singleton.mp ht ▸ whole_empty
  have hbase : ∀ t ∈ if path = [""] then [] else path, Whole t := by
    split
    · exact nofun
    · exact hw
  intro t ht
  rw [pushSegment] at ht
  split at ht
  · exact hw t ht
  · dsimp only at ht
    split at ht
    · exact hempty _ (fun t ht => hbase t (mem_of_mem_above ht)) t ht
    · split at ht
      · exact hempty _ hbase t ht
      · rcases List.mem_append.mp ht with ht | ht
        · exact hbase t ht
        · exact List.mem_singleton.mp ht ▸ whole_segmentText s

theorem whole_foldl_pushSegment : ∀ (names : List String) {path : List String},
    (∀ t ∈ path, Whole t) → ∀ t ∈ names.foldl pushSegment path, Whole t
  | [], _, hw => hw
  | s :: names, _, hw => whole_foldl_pushSegment names (whole_pushSegment s hw)

theorem whole_extend {u : Url} (hw : ∀ t ∈ u.path, Whole t) (names : List String) :
    ∀ t ∈ (u.extend names).path, Whole t :=
  whole_foldl_pushSegment names (whole_popIfEmpty hw)

theorem segmentText_ne_empty {s : String} (h : Plain s) (hne : s ≠ "") : segmentText s ≠ "" := by
  intro he
  have hspells : Spells (segmentText s) s := spells_segmentText_iff.mpr h.2.2
  rw [he] at hspells
  exact hne (eq_empty_of_spells hspells)

/-- Adding segments changes nothing but the path. -/
theorem extend_eq (u : Url) (names : List String) :
    u.extend names = { u with path := (u.extend names).path } := rfl

/-- The first two texts, when they are plain, follow the endpoint's segments. -/
theorem path_extend {a b : String} (ha : Plain a) (hb : Plain b) (hne : a ≠ "") (u : Url)
    (names : List String) : (u.extend (a :: b :: names)).path =
      names.foldl pushSegment (root u.path ++ [segmentText a, segmentText b]) := by
  have hone : root u.path ++ [segmentText a] ≠ [""] := by
    intro he
    have hlast := congrArg List.getLast? he
    rw [List.getLast?_concat] at hlast
    exact segmentText_ne_empty ha hne (Option.some.inj hlast)
  have hroot : pushSegment (popIfEmpty u.path) a = root u.path ++ [segmentText a] :=
    pushSegment_plain ha _
  rw [extend]
  simp only [List.foldl_cons]
  rw [hroot, pushSegment_plain hb, if_neg hone, List.append_assoc, List.singleton_append]

/-- The segments of a URL that was read are whole. -/
theorem whole_of_read {s : String} {u : Url} (h : read s = .ok (.web u)) : ∀ t ∈ u.path, Whole t := by
  obtain ⟨scheme, rest, -, hread⟩ := read_eq_web.mp h
  cases hhost : readHostPort (splitUser (authorityOf rest)).2 with
  | error fault =>
    rw [readWeb_of_error hhost] at hread
    cases hread
  | ok hp =>
    obtain ⟨v, hv, -, -, -, hpath⟩ := readWeb_of_ok scheme hhost
    rw [hread] at hv
    cases hv
    rw [hpath]
    exact fun t => whole_of_mem_readPath

theorem eq_of_map_segmentText : ∀ {names names' : List String}, (∀ n ∈ names, Plain n) →
    (∀ n ∈ names', Plain n) → names.map segmentText = names'.map segmentText → names = names'
  | [], [], _, _, _ => rfl
  | [], _ :: _, _, _, h => by cases h
  | _ :: _, [], _, _, h => by cases h
  | n :: names, n' :: names', hn, hn', h => by
    obtain ⟨htext, hrest⟩ := List.cons.inj h
    have hspells := spells_segmentText_iff.mpr (hn n List.mem_cons_self).2.2
    rw [htext] at hspells
    have hspells' := spells_segmentText_iff.mpr (hn' n' List.mem_cons_self).2.2
    rw [hspells.unique hspells', eq_of_map_segmentText (fun m hm => hn m (List.mem_cons_of_mem _ hm))
      (fun m hm => hn' m (List.mem_cons_of_mem _ hm)) hrest]

end Url

namespace Command

/-- What the address of a command that is about one resource ends with: the plugin, the kind of the
    resource, and its name. -/
def target? : Command → Option (Plugin × String × String)
  | .getJob id | .updateJob id _ | .cancelJob id => some (.slurm, "job", toString id)
  | .getNode name | .updateNode name _ | .deleteNode name => some (.slurm, "node", name)
  | .getPartition name => some (.slurm, "partition", name)
  | .getAccount name | .deleteAccount name => some (.slurmdb, "account", name)
  | .getUser name | .deleteUser name => some (.slurmdb, "user", name)
  | .getQos name | .deleteQos name => some (.slurmdb, "qos", name)
  | .getReservation name | .deleteReservation name => some (.slurm, "reservation", name)
  | _ => none

theorem route_of_post {plugin : Plugin} {path : List String} {body : Except Rejection Json} {d : Draft}
    (h : post plugin path body = .ok (some d)) : d.plugin = plugin ∧ d.path = path := by
  cases body with
  | error r => cases h
  | ok json => cases h; exact ⟨rfl, rfl⟩

theorem draft_of_target {c : Command} {plugin : Plugin} {kind name : String} {revision : Revision}
    {d : Draft} (h : c.target? = some (plugin, kind, name)) (hd : c.draft revision = .ok (some d)) :
    d.plugin = plugin ∧ d.path = [kind, name] := by
  cases c with
  | updateJob id update => cases h; exact route_of_post hd
  | updateNode name update => cases h; exact route_of_post hd
  | getJob | cancelJob | getNode | deleteNode | getPartition | getAccount | deleteAccount | getUser
  | deleteUser | getQos | deleteQos | getReservation | deleteReservation =>
    cases h; cases hd; exact ⟨rfl, rfl⟩
  | _ => cases h

end Command

namespace Session

variable {s : Session}

theorem plain_plugin (plugin : Plugin) : Url.Plain plugin.name ∧ plugin.name ≠ "" ∧
    Url.segmentText plugin.name = plugin.name := by
  cases plugin <;> decide

theorem plain_version (s : Session) : Url.Plain s.apiVersion.toText ∧
    Url.segmentText s.apiVersion.toText = s.apiVersion.toText := by
  rw [apiVersion]
  cases s.revision <;> decide

/-- The path of an address below `base`: plugin and version follow the endpoint's segments, and then come
    the names. -/
def path (s : Session) (base : List String) (plugin : Plugin) (names : List String) : List String :=
  names.foldl Url.pushSegment (Url.root base ++ [plugin.name, s.apiVersion.toText])

theorem path_extend (s : Session) (u : Url) (plugin : Plugin) (names : List String) :
    (u.extend (plugin.name :: s.apiVersion.toText :: names)).path = s.path u.path plugin names := by
  obtain ⟨hplugin, hne, htext⟩ := plain_plugin plugin
  obtain ⟨hversion, htext'⟩ := s.plain_version
  rw [path, Url.path_extend hplugin hversion hne, htext, htext']

theorem url_eq {u : Url} (h : Url.read s.endpoint = .ok (.web u)) (plugin : Plugin)
    (names : List String) :
    s.url plugin names = .ok (Url.toText { u with path := s.path u.path plugin names }) := by
  rw [url, h, ← path_extend, ← Url.extend_eq]

theorem whole_path {u : Url} (hw : ∀ t ∈ u.path, Url.Whole t) (plugin : Plugin) (names : List String) :
    ∀ t ∈ s.path u.path plugin names, Url.Whole t := by
  rw [← path_extend]
  exact Url.whole_extend hw _

theorem two_le_length (s : Session) (base : List String) (plugin : Plugin) :
    2 ≤ (Url.root base ++ [plugin.name, s.apiVersion.toText]).length := by
  rw [List.length_append]
  exact Nat.le_add_left _ _

theorem path_plain {names : List String} (h : ∀ n ∈ names, Url.Plain n) (base : List String)
    (plugin : Plugin) : s.path base plugin names =
      Url.root base ++ plugin.name :: s.apiVersion.toText :: names.map Url.segmentText := by
  rw [path, Url.foldl_pushSegment_plain (s.two_le_length base plugin) h, List.append_assoc]
  rfl

/-- One segment for each name, after the whole path of the endpoint: that is how it is with plain names
    and an endpoint whose path is not `//`, and not otherwise. -/
theorem path_spells_iff {base : List String} {plugin : Plugin} {names : List String} :
    (∃ texts, s.path base plugin names =
      Url.stem base ++ plugin.name :: s.apiVersion.toText :: texts ∧
        List.Forall₂ Url.Spells texts names) ↔ base ≠ ["", ""] ∧ ∀ n ∈ names, Url.Plain n := by
  constructor
  · rintro ⟨texts, hpath, hspells⟩
    have hbase : base ≠ ["", ""] := by
      rintro rfl
      obtain ⟨-, hle⟩ := Url.length_foldl_pushSegment names (s.two_le_length ["", ""] plugin)
      have hlength := congrArg List.length hpath
      have hlost := Url.length_root_lt_stem
      rw [path] at hlength
      simp only [List.length_append, List.length_cons, hspells.length_eq] at hlength hle
      simp only [List.length_nil] at hle
      omega
    refine ⟨hbase, Url.plain_of_foldl (s.two_le_length base plugin) names ?_ hspells⟩
    rw [Url.root_eq_stem hbase, List.append_assoc]
    rw [path, Url.root_eq_stem hbase] at hpath
    exact hpath
  · rintro ⟨hbase, hplain⟩
    refine ⟨names.map Url.segmentText, ?_, ?_⟩
    · rw [path_plain hplain, Url.root_eq_stem hbase]
    · rw [List.forall₂_map_left_iff, List.forall₂_same]
      exact fun n hn => Url.spells_segmentText_iff.mpr (hplain n hn).2.2

theorem plugin_of_name {plugin plugin' : Plugin} (h : plugin.name = plugin'.name) :
    plugin = plugin' := by
  cases plugin <;> cases plugin' <;> first | rfl | exact absurd h (by decide)

/-- Addresses with plain names are different if anything in them is. -/
theorem url_injective {u : Url} (hu : Url.read s.endpoint = .ok (.web u)) {plugin plugin' : Plugin}
    {names names' : List String} (hn : ∀ n ∈ names, Url.Plain n) (hn' : ∀ n ∈ names', Url.Plain n)
    (h : s.url plugin names = s.url plugin' names') : plugin = plugin' ∧ names = names' := by
  have hwhole : ∀ t ∈ u.path, Url.Whole t := Url.whole_of_read hu
  rw [url_eq hu, url_eq hu] at h
  have hpath := Url.toText_injective (whole_path hwhole plugin names) (whole_path hwhole plugin' names')
    (Except.ok.inj h)
  rw [path_plain hn, path_plain hn'] at hpath
  have hrest := List.append_cancel_left hpath
  simp only [List.cons.injEq, true_and] at hrest
  exact ⟨plugin_of_name hrest.1, Url.eq_of_map_segmentText hn hn' hrest.2⟩

theorem url_of_request {d : Draft} {r : Request} (h : s.request d = .ok r) :
    s.url d.plugin d.path = .ok r.url := by
  rw [request] at h
  cases hu : s.url d.plugin d.path with
  | error e => rw [hu] at h; cases h
  | ok url =>
    rw [hu] at h
    cases hb : d.body <;> rw [hb] at h <;> cases h <;> rfl

theorem url_of_target {c : Command} {plugin : Plugin} {kind name : String} {r : Request}
    (h : c.target? = some (plugin, kind, name)) (hr : c.prepare s = .ok (some r)) :
    s.url plugin [kind, name] = .ok r.url := by
  rw [Command.prepare] at hr
  split at hr
  · cases hr
  · split at hr
    · cases hr
    · cases hr
    · next d hd =>
      obtain ⟨hplugin, hpath⟩ := Command.draft_of_target h hd
      cases hq : s.request d with
      | error e => rw [hq] at hr; cases hr
      | ok r' =>
        rw [hq] at hr
        cases hr
        rw [← hplugin, ← hpath]
        exact url_of_request hq

/-- For each last name there is another one that makes no difference. -/
theorem exists_url_eq {u : Url} (hu : Url.read s.endpoint = .ok (.web u)) (plugin : Plugin)
    (names : List String) (n : String) :
    ∃ m, m ≠ n ∧ s.url plugin (names ++ [m]) = s.url plugin (names ++ [n]) := by
  obtain ⟨m, hm, hsame⟩ := Url.exists_alias n
  refine ⟨m, hm, ?_⟩
  rw [url_eq hu, url_eq hu, path, path, List.foldl_append, List.foldl_append]
  exact congrArg (fun p => Except.ok (Url.toText { u with path := p })) (hsame _)

/-- The kinds of resources are plain texts. -/
theorem plain_kind {c : Command} {plugin : Plugin} {kind name : String}
    (h : c.target? = some (plugin, kind, name)) : Url.Plain kind := by
  cases c <;> cases h <;> decide

/-- Requests about resources with plain names go to one address only if they are about one resource. -/
theorem target_eq_of_url {u : Url} (hu : Url.read s.endpoint = .ok (.web u)) {c c' : Command}
    {plugin plugin' : Plugin} {kind kind' n n' : String} {r r' : Request}
    (hc : c.target? = some (plugin, kind, n)) (hc' : c'.target? = some (plugin', kind', n'))
    (hn : Url.Plain n) (hn' : Url.Plain n') (hr : c.prepare s = .ok (some r))
    (hr' : c'.prepare s = .ok (some r')) (he : r.url = r'.url) :
    plugin = plugin' ∧ kind = kind' ∧ n = n' := by
  have hplain : ∀ m ∈ [kind, n], Url.Plain m := by
    simpa using ⟨plain_kind hc, hn⟩
  have hplain' : ∀ m ∈ [kind', n'], Url.Plain m := by
    simpa using ⟨plain_kind hc', hn'⟩
  have hurl : s.url plugin [kind, n] = s.url plugin' [kind', n'] := by
    rw [url_of_target hc hr, url_of_target hc' hr', he]
  obtain ⟨hplugin, hnames⟩ := url_injective hu hplain hplain' hurl
  simpa [hplugin] using hnames

end Session

/-- A name that may be created has no tab or line break in it. -/
theorem not_ignored_of_checkName {sort name : String} (h : checkName sort name = .ok ()) :
    ∀ c ∈ name.toList, Url.isIgnored c = false := by
  rw [checkName] at h
  split at h
  · cases h
  · split at h
    · cases h
    · next hclean =>
      intro c hc
      by_contra hignored
      rw [Bool.not_eq_false] at hignored
      refine hclean (List.any_eq_true.mpr ⟨c, hc, ?_⟩)
      simp only [Url.isIgnored, Bool.or_eq_true, beq_iff_eq] at hignored
      rcases hignored with (rfl | rfl) | rfl <;> rfl

theorem plain_iff_of_checkName {sort name : String} (h : checkName sort name = .ok ()) :
    Url.Plain name ↔ name ≠ "." ∧ name ≠ ".." :=
  ⟨fun hp => ⟨hp.1, hp.2.1⟩, fun hne => ⟨hne.1, hne.2, not_ignored_of_checkName h⟩⟩

/-- The number of a job is a plain text. -/
theorem plain_toString (id : Nat) : Url.Plain (toString id) := by
  have hlist : (toString id).toList = Nat.toDigits 10 id := Nat.toList_repr
  have hdigit : ∀ c ∈ (toString id).toList, c.isDigit = true := fun c hc =>
    Nat.isDigit_of_mem_toDigits (by decide) (by decide) (hlist ▸ hc)
  have hdot : ∀ s : String, '.' ∈ s.toList → toString id ≠ s := by
    rintro s hs rfl
    exact absurd (hdigit '.' hs) (by decide)
  refine ⟨hdot "." (by decide), hdot ".." (by decide), fun c hc => ?_⟩
  by_contra hignored
  have h := hdigit c hc
  rw [Bool.not_eq_false] at hignored
  simp only [Url.isIgnored, Bool.or_eq_true, beq_iff_eq] at hignored
  rcases hignored with (rfl | rfl) | rfl <;> exact absurd h (by decide)

open Url in
/-- The names of resources in addresses, for an endpoint that has passed its check.

    - An address has the endpoint's path, the plugin, the version and one segment for each name, which
      stands for that name, exactly if the endpoint's path is not `//` and all the names are plain.
    - Addresses with plain names are different if anything in them is.
    - For each name there is another one that makes no difference.
    - Requests about two resources with plain names go to different addresses.
    - The number of a job is plain, and a name that may be created is plain unless it is one dot or two. -/
theorem Session.names_exact {config : ClientConfig} {s : Session} (hvalid : config.validate = .ok ())
    (hs : s.endpoint = config.endpoint) :
    ∃ u, Url.read s.endpoint = .ok (.web u) ∧
    (∀ plugin names, ∃ path, s.url plugin names = .ok (Url.toText { u with path }) ∧
      (∀ t ∈ path, Whole t) ∧
      ((∃ texts, path = stem u.path ++ plugin.name :: s.apiVersion.toText :: texts ∧
          List.Forall₂ Spells texts names) ↔ u.path ≠ ["", ""] ∧ ∀ n ∈ names, Plain n)) ∧
    (∀ plugin plugin' names names', (∀ n ∈ names, Plain n) → (∀ n ∈ names', Plain n) →
      s.url plugin names = s.url plugin' names' → plugin = plugin' ∧ names = names') ∧
    (∀ plugin names n, ∃ m, m ≠ n ∧ s.url plugin (names ++ [m]) = s.url plugin (names ++ [n])) ∧
    (∀ (c c' : Command) plugin plugin' kind kind' n n' r r', c.target? = some (plugin, kind, n) →
      c'.target? = some (plugin', kind', n') → Plain n → Plain n' → c.prepare s = .ok (some r) →
      c'.prepare s = .ok (some r') → r.url = r'.url → plugin = plugin' ∧ kind = kind' ∧ n = n') ∧
    (∀ id : Nat, Plain (toString id)) ∧
    (∀ sort n, checkName sort n = .ok () → (Plain n ↔ n ≠ "." ∧ n ≠ "..")) := by
  obtain ⟨u, hu⟩ := config.exists_web hvalid
  rw [← hs] at hu
  refine ⟨u, hu, fun plugin names => ?_, fun _ _ _ _ => url_injective hu, fun plugin names n => ?_, ?_,
    plain_toString, fun _ _ => plain_iff_of_checkName⟩
  · exact ⟨_, url_eq hu plugin names, whole_path (whole_of_read hu) plugin names, path_spells_iff⟩
  · exact exists_url_eq hu plugin names n
  · intro c c' plugin plugin' kind kind' n n' r r' hc hc' hn hn' hr hr' he
    exact target_eq_of_url hu hc hc' hn hn' hr hr' he

/-! ### Names that share an address -/

def plainConfig : ClientConfig := { baseUrl := "http://slurm.test:6820" }

def plainSession : Session := ⟨0, .v42, "http://slurm.test:6820", none⟩

open Url in
/-- The segment of a plain name stands for it, and the one of a name with a tab in it does not. -/
theorem Session.names_exact_node : plainConfig.validate = .ok () ∧
    plainSession.endpoint = plainConfig.endpoint ∧
    ∃ u path path', Url.read plainSession.endpoint = .ok (.web u) ∧
      plainSession.url .slurm ["node", "a b/c"] = .ok (Url.toText { u with path }) ∧
      (∃ texts, path = stem u.path ++ ["slurm", "v0.0.42"] ++ texts ∧
        List.Forall₂ Spells texts ["node", "a b/c"]) ∧
      plainSession.url .slurm ["node", "n1\t"] = .ok (Url.toText { u with path := path' }) ∧
      ¬ ∃ texts, path' = stem u.path ++ ["slurm", "v0.0.42"] ++ texts ∧
        List.Forall₂ Spells texts ["node", "n1\t"] := by
  have hvalid : plainConfig.validate = .ok () := rfl
  have hs : plainSession.endpoint = plainConfig.endpoint := rfl
  obtain ⟨u, hu, hurl, -⟩ := names_exact hvalid hs
  obtain ⟨path, hpath, -, hexact⟩ := hurl .slurm ["node", "a b/c"]
  obtain ⟨path', hpath', -, hexact'⟩ := hurl .slurm ["node", "n1\t"]
  have hbase : u.path = [""] := by
    have hread : Url.read plainSession.endpoint = .ok (.web
        ⟨.http, "", .domain "slurm.test", some 6820, [""], none, none⟩) := rfl
    rw [hread] at hu
    cases hu
    rfl
  simp only [List.append_assoc, List.cons_append, List.nil_append]
  refine ⟨hvalid, hs, u, path, path', hu, hpath, hexact.mpr ⟨?_, by decide⟩, hpath', fun hform => ?_⟩
  · rw [hbase]; decide
  · exact absurd (hexact'.mp hform).2 (by decide)

/-- Two names are one node's address, and two names that may be created shorten the path. -/
theorem Command.alias_of_tab :
    "n1\t" ≠ "n1" ∧
    (deleteNode "n1\t").prepare plainSession =
      .ok (some { method := .delete, url := "http://slurm.test:6820/slurm/v0.0.42/node/n1" }) ∧
    (deleteNode "n1").prepare plainSession = (deleteNode "n1\t").prepare plainSession ∧
    ¬ Url.Spells "n1" "n1\t" ∧
    checkName "account" "." = .ok () ∧ checkName "account" ".." = .ok () ∧
    (deleteAccount ".").prepare plainSession =
      .ok (some { method := .delete, url := "http://slurm.test:6820/slurmdb/v0.0.42/account" }) ∧
    (deleteAccount "..").prepare plainSession = (deleteAccount ".").prepare plainSession := by
  refine ⟨by decide, rfl, rfl, by decide, rfl, rfl, rfl, rfl⟩

end SlurmLink

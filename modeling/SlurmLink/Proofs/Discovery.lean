import Mathlib.Data.List.DropRight
import SlurmLink.Proofs.Extension
import SlurmLink.Session.Negotiation

/-!
The address of the interface document, beside those of commands. It is the endpoint's text with a path
after it, which is read as a URL only then, while commands add to the path of the endpoint as it was
read:

    endpoint e ──▶ e ++ "/openapi/v3" ──read──▶ d
       │ read
       ▼
       u ──extend──▶ addresses of commands

`Discovery.url_exact` says when `d` is at the same server and below the same path as the addresses of
commands: exactly if the endpoint has no query and no fragment, ends neither in a slash nor in a blank,
and its path is not `//`. `Discovery.asks_elsewhere` is an endpoint with a query.
-/

namespace SlurmLink

namespace Url

/-- Another path can be written after the text: there is no query and no fragment, and neither a slash
    nor a blank at the end. -/
def Extensible (cs : List Char) : Prop :=
  (∀ c ∈ cs, c ≠ '?' ∧ c ≠ '#') ∧ ∀ c ∈ cs.getLast?, isSlash c = false ∧ 0x20 < c.toNat

instance (cs : List Char) : Decidable (Extensible cs) :=
  letI : Decidable (∀ c ∈ cs, c ≠ '?' ∧ c ≠ '#') := List.decidableBAll _ _
  letI : Decidable (∀ c ∈ cs.getLast?, isSlash c = false ∧ 0x20 < c.toNat) :=
    Option.decidableForallMem _
  inferInstanceAs (Decidable (_ ∧ _))

/-- What a text consists of when it is read as a URL: scheme and slashes, the authority, what comes
    after it, and the blanks at the end. -/
structure Anatomy (cs lead authority after blanks : List Char) : Prop where
  core_eq : core cs = lead ++ (authority ++ after)
  opening_eq : opening cs = core cs ++ blanks
  not_mark : ∀ c ∈ lead, c ≠ '?' ∧ c ≠ '#'
  ne_nil : authority ≠ []
  not_ends : ∀ c ∈ authority, endsAuthority true c = false
  ends : ∀ c ∈ after.head?, endsAuthority true c = true
  blank : ∀ c ∈ blanks, c.toNat ≤ 0x20

theorem not_mark_of_not_ends {c : Char} (h : endsAuthority true c = false) :
    (c ≠ '?' ∧ c ≠ '#') ∧ isSlash c = false := by
  simp only [endsAuthority, Bool.or_eq_false_iff, beq_eq_false_iff_ne, Bool.true_and] at h
  obtain ⟨⟨⟨hslash, hquestion⟩, hsign⟩, hback⟩ := h
  refine ⟨⟨hquestion, hsign⟩, ?_⟩
  rw [isSlash, beq_eq_false_iff_ne.mpr hslash, beq_eq_false_iff_ne.mpr hback]
  rfl

/-- Another path can be written after a URL if nothing stands after it that would be in the way. -/
theorem Anatomy.extensible_iff {cs lead authority after blanks : List Char}
    (h : Anatomy cs lead authority after blanks) : Extensible (opening cs) ↔
      blanks = [] ∧ (∀ c ∈ after, c ≠ '?' ∧ c ≠ '#') ∧ ∀ c ∈ after.getLast?, isSlash c = false := by
  rcases List.eq_nil_or_concat blanks with rfl | ⟨bs, b, rfl⟩
  · have hlast : (core cs).getLast? = after.getLast?.or authority.getLast? := by
      have hne : authority ++ after ≠ [] := fun he => h.ne_nil (List.append_eq_nil_iff.mp he).1
      rw [h.core_eq, List.getLast?_append_of_ne_nil _ hne, List.getLast?_append]
    rw [h.opening_eq, List.append_nil]
    constructor
    · rintro ⟨hmarks, hend⟩
      refine ⟨rfl, fun c hc => hmarks c ?_, fun c hc => ?_⟩
      · rw [h.core_eq]
        exact List.mem_append_right _ (List.mem_append_right _ hc)
      · refine (hend c ?_).1
        rw [hlast, hc]
        rfl
    · rintro ⟨-, hmarks, hend⟩
      refine ⟨fun c hc => ?_, fun c hc => ⟨?_, getLast?_core hc⟩⟩
      · rw [h.core_eq, List.mem_append, List.mem_append] at hc
        rcases hc with hc | hc | hc
        · exact h.not_mark c hc
        · exact (not_mark_of_not_ends (h.not_ends c hc)).1
        · exact hmarks c hc
      · rw [hlast] at hc
        cases ha : after.getLast? with
        | some d =>
          rw [ha] at hc
          exact hend c (ha.trans hc)
        | none =>
          rw [ha] at hc
          exact (not_mark_of_not_ends (h.not_ends c (List.mem_of_getLast? hc))).2
  · refine ⟨fun hext => ?_, fun hrest => absurd hrest.1 (by simp)⟩
    have hb : b ∈ (opening cs).getLast? := by
      rw [h.opening_eq, List.concat_eq_append, ← List.append_assoc, List.getLast?_concat]
      rfl
    exact absurd (hext.2 b hb).2 (Nat.not_lt.mpr (h.blank b (by simp)))

/-- The path below which others are is not two segments shorter than the path. -/
theorem root_append_ne (path : List String) : path ≠ root path ++ ["openapi", "v3"] := by
  intro h
  by_cases hpath : path = ["", ""]
  · rw [hpath] at h
    exact absurd h (by decide)
  · rw [root_eq_stem hpath, stem] at h
    have hlength := congrArg List.length h
    rw [List.length_append] at hlength
    split at hlength
    · rw [List.length_dropLast, List.length_cons, List.length_singleton] at hlength
      omega
    · rw [List.length_cons, List.length_singleton] at hlength
      omega

theorem pathOf_of_not_mark {cs : List Char} (h : ∀ c ∈ cs, c ≠ '?' ∧ c ≠ '#') : pathOf cs = cs := by
  refine List.takeWhile_eq_self_iff.mpr fun c hc => ?_
  rw [bne_iff_ne.mpr (h c hc).1, bne_iff_ne.mpr (h c hc).2]
  rfl

/-- A path that has ended is not changed by something more. -/
theorem pathOf_append_of_mark {cs : List Char} (h : ¬ ∀ c ∈ cs, c ≠ '?' ∧ c ≠ '#') (more : List Char) :
    pathOf (cs ++ more) = pathOf cs := by
  rw [pathOf, pathOf, List.takeWhile_append, if_neg]
  intro hlength
  refine h fun c hc => ?_
  have hall := List.takeWhile_eq_self_iff.mp ((List.takeWhile_prefix _).eq_of_length hlength) c hc
  simpa only [Bool.and_eq_true, bne_iff_ne] using hall

/-- What the path is that is read after the authority, when something has been written after it. -/
theorem pathOf_append_iff {after blanks : List Char} (hends : ∀ c ∈ after.head?, endsAuthority true c = true)
    (hblanks : ∀ c ∈ blanks, c.toNat ≤ 0x20) (hnone : after = [] → blanks = []) :
    readPath (pathOf (after ++ (blanks ++ "/openapi/v3".toList))) =
        root (readPath (pathOf after)) ++ ["openapi", "v3"] ↔
      (blanks = [] ∧ (∀ c ∈ after, c ≠ '?' ∧ c ≠ '#') ∧ ∀ c ∈ after.getLast?, isSlash c = false) ∧
        readPath (pathOf after) ≠ ["", ""] := by
  cases after with
  | nil =>
    rw [hnone rfl]
    exact ⟨fun _ => ⟨⟨rfl, nofun, nofun⟩, by decide⟩, fun _ => by decide⟩
  | cons x cs =>
    by_cases hmarks : ∀ c ∈ x :: cs, c ≠ '?' ∧ c ≠ '#'
    · have hx : isSlash x = true := by
        by_contra hx
        have hmark := hends x rfl
        obtain ⟨hquestion, hsign⟩ := hmarks x List.mem_cons_self
        rw [Bool.not_eq_true, isSlash, Bool.or_eq_false_iff] at hx
        simp [endsAuthority, hx, hquestion, hsign] at hmark
      have hall : ∀ c ∈ x :: cs ++ (blanks ++ "/openapi/v3".toList), c ≠ '?' ∧ c ≠ '#' := by
        intro c hc
        rcases List.mem_append.mp hc with hc | hc
        · exact hmarks c hc
        rcases List.mem_append.mp hc with hc | hc
        · exact ⟨ne_of_blank (hblanks c hc) (by decide), ne_of_blank (hblanks c hc) (by decide)⟩
        · have htail : Extensible "/openapi/v3".toList := by decide
          exact htail.1 c hc
      rw [pathOf_of_not_mark hmarks, pathOf_of_not_mark hall, readPath_append_iff hx cs hblanks]
      exact ⟨fun h => ⟨⟨h.1, hmarks, h.2.1⟩, h.2.2⟩, fun h => ⟨h.1.1, h.1.2.2, h.2⟩⟩
    · refine ⟨fun h => ?_, fun h => absurd h.1.2.1 hmarks⟩
      -- with a query or a fragment the text after it is none of the path
      rw [pathOf_append_of_mark hmarks] at h
      exact absurd h (root_append_ne _)

/-! ### The endpoint with a path after it -/

theorem scheme_of_name {scheme scheme' : Scheme} (h : scheme.name = scheme'.name) :
    scheme = scheme' := by
  cases scheme <;> cases scheme' <;> first | rfl | exact absurd h (by decide)

theorem not_mark_of_scheme {c : Char} (h : isSchemeChar c = true) : c ≠ '?' ∧ c ≠ '#' := by
  constructor <;> rintro rfl <;> exact absurd h (by decide)

theorem not_mark_of_slash {c : Char} (h : isSlash c = true) : c ≠ '?' ∧ c ≠ '#' := by
  constructor <;> rintro rfl <;> exact absurd h (by decide)

/-- No blank ends an authority. -/
theorem not_ends_of_blank {b : Char} (hb : b.toNat ≤ 0x20) : endsAuthority true b = false := by
  have hne : ∀ mark : Char, 0x20 < mark.toNat → (b == mark) = false := fun mark hmark =>
    beq_eq_false_iff_ne.mpr (ne_of_blank hb hmark)
  rw [endsAuthority, hne '/' (by decide), hne '?' (by decide), hne '#' (by decide),
    hne '\\' (by decide)]
  rfl

/-- What follows an authority begins with a mark that ends it. -/
theorem ends_of_head_afterAuthority {cs : List Char} {c : Char} (h : c ∈ (afterAuthority cs).head?) :
    endsAuthority true c = true := by
  rw [afterAuthority_eq] at h
  have hhead := List.head?_dropWhile_not (fun c => !endsAuthority true c) (cs.dropWhile isSlash)
  rw [Option.mem_def.mp h] at hhead
  simpa using hhead

/-- Each text with a scheme and an authority can be taken apart. -/
theorem anatomy_of_splitScheme {cs rest : List Char} {scheme : String}
    (h : splitScheme (core cs) = some (scheme, rest)) (hne : authorityOf rest ≠ []) :
    ∃ lead blanks, Anatomy cs lead (authorityOf rest) (afterAuthority rest) blanks := by
  obtain ⟨name, hcore, hname⟩ := eq_append_of_splitScheme h
  obtain ⟨blanks, hopening, hblanks⟩ := opening_eq cs
  refine ⟨name ++ ':' :: rest.takeWhile isSlash, blanks, ?_, hopening, fun c hc => ?_, hne,
    fun c => not_ends_of_mem_authority, fun c => ends_of_head_afterAuthority, hblanks⟩
  · rw [hcore, List.append_assoc, List.cons_append, ← eq_append_authority]
  · rcases List.mem_append.mp hc with hc | hc
    · exact not_mark_of_scheme (hname c hc)
    rcases List.mem_cons.mp hc with rfl | hc
    · decide
    · exact not_mark_of_slash (List.all_eq_true.mp List.all_takeWhile c hc)

/-- The scheme ends where it did when something follows the text. -/
theorem read_append_eq_web {e : String} {rest blanks : List Char} {scheme : Scheme}
    (h : splitScheme (core e.toList) = some (scheme.name, rest))
    (hopening : opening e.toList = core e.toList ++ blanks) {d : Url} :
    read (e ++ "/openapi/v3") = .ok (.web d) ↔
      readWeb scheme (rest ++ (blanks ++ "/openapi/v3".toList)) = .ok d := by
  have hclean : Plain "/openapi/v3" := by decide
  have hne : core e.toList ≠ [] := by
    obtain ⟨name, hcore, -⟩ := eq_append_of_splitScheme h
    rw [hcore]
    simp
  have hsplit : splitScheme (core (e ++ "/openapi/v3").toList) =
      some (scheme.name, rest ++ (blanks ++ "/openapi/v3".toList)) := by
    rw [String.toList_append, core_append hne (show _ = some '3' from rfl) (by decide) hclean.2.2,
      hopening, List.append_assoc]
    exact splitScheme_append h _
  rw [read_eq_web]
  constructor
  · rintro ⟨scheme', rest', hsplit', hd⟩
    rw [hsplit] at hsplit'
    obtain ⟨hsame, hrest⟩ := Prod.mk.inj (Option.some.inj hsplit')
    rw [scheme_of_name hsame, hrest]
    exact hd
  · exact fun hd => ⟨scheme, _, hsplit, hd⟩

/-- Blanks between the authority and a slash belong to the authority, which cannot be read then. -/
theorem readWeb_append_blanks {rest blanks : List Char} (hne : authorityOf rest ≠ [])
    (hafter : afterAuthority rest = []) (hblanks : ∀ c ∈ blanks, c.toNat ≤ 0x20) (hsome : blanks ≠ [])
    (scheme : Scheme) (more : List Char) :
    ∃ fault, readWeb scheme (rest ++ (blanks ++ '/' :: more)) = .error fault := by
  obtain ⟨bs, b, rfl⟩ := (List.eq_nil_or_concat blanks).resolve_left hsome
  rw [List.concat_eq_append] at hblanks ⊢
  have hb : b.toNat ≤ 0x20 := hblanks b (by simp)
  have hends : endsAuthority true '/' = true := rfl
  have hauthority := (authority_append_mark hne hafter
    (fun c hc => not_ends_of_blank (hblanks c hc)) hends more).1
  rw [← List.append_assoc (authorityOf rest)] at hauthority
  obtain ⟨ds, hds⟩ := splitUser_concat (ne_of_blank hb (by decide)) (authorityOf rest ++ bs)
  obtain ⟨fault, hfault⟩ := readHostPort_concat hb ds
  rw [← hds, ← hauthority] at hfault
  exact ⟨fault, readWeb_of_error hfault⟩

/-- Without such blanks the authority is what it was, and what is written after the text follows it. -/
theorem authority_append_slash {rest blanks : List Char} (hne : authorityOf rest ≠ [])
    (hnone : afterAuthority rest = [] → blanks = []) (more : List Char) :
    authorityOf (rest ++ (blanks ++ '/' :: more)) = authorityOf rest ∧
      afterAuthority (rest ++ (blanks ++ '/' :: more)) =
        afterAuthority rest ++ (blanks ++ '/' :: more) := by
  by_cases hafter : afterAuthority rest = []
  · obtain rfl := hnone hafter
    have hends : endsAuthority true '/' = true := rfl
    have hnil : ∀ c ∈ ([] : List Char), endsAuthority true c = false := fun c hc => by cases hc
    have hmark := authority_append_mark hne hafter hnil hends more
    rw [List.append_nil] at hmark
    rw [hafter]
    exact hmark
  · exact authority_append hafter _

/-- The parts of an endpoint, and what the address of its interface document is read as. -/
theorem exists_anatomy {e : String} {u : Url} (h : read e = .ok (.web u)) :
    ∃ lead authority after blanks, Anatomy e.toList lead authority after blanks ∧
      u.path = readPath (pathOf after) ∧
      (after = [] → blanks ≠ [] → ∀ d, read (e ++ "/openapi/v3") ≠ .ok (.web d)) ∧
      ((after = [] → blanks = []) → ∃ d, read (e ++ "/openapi/v3") = .ok (.web d) ∧
        d.scheme = u.scheme ∧ d.host = u.host ∧ d.port = u.port ∧
        d.path = readPath (pathOf (after ++ (blanks ++ "/openapi/v3".toList)))) := by
  obtain ⟨scheme, rest, hsplit, hread⟩ := read_eq_web.mp h
  cases hhost : readHostPort (splitUser (authorityOf rest)).2 with
  | error fault =>
    rw [readWeb_of_error hhost] at hread
    cases hread
  | ok found =>
    obtain ⟨host, port⟩ := found
    obtain ⟨v, hv, hscheme, hsame, hport, hpath⟩ := readWeb_of_ok scheme hhost
    rw [hread] at hv
    cases hv
    have hauthority : authorityOf rest ≠ [] := by
      intro hnil
      rw [hnil] at hhost
      cases hhost
    obtain ⟨lead, blanks, hanatomy⟩ := anatomy_of_splitScheme hsplit hauthority
    have hslash : "/openapi/v3".toList = '/' :: "openapi/v3".toList := by decide
    refine ⟨lead, _, _, blanks, hanatomy, hpath, fun hafter hsome d hd => ?_, fun hnone => ?_⟩
    · obtain ⟨fault, hfault⟩ := readWeb_append_blanks hauthority hafter hanatomy.blank hsome scheme
        "openapi/v3".toList
      rw [read_append_eq_web hsplit hanatomy.opening_eq, hslash, hfault] at hd
      cases hd
    · obtain ⟨hkept, hfollows⟩ := authority_append_slash hauthority hnone "openapi/v3".toList
      rw [← hslash] at hkept hfollows
      rw [← hkept] at hhost
      obtain ⟨d, hd, hdscheme, hdhost, hdport, hdpath⟩ := readWeb_of_ok scheme hhost
      refine ⟨d, (read_append_eq_web hsplit hanatomy.opening_eq).mpr hd, ?_, ?_, ?_, ?_⟩
      · rw [hdscheme, hscheme]
      · rw [hdhost, hsame]
      · rw [hdport, hport]
      · rw [hdpath, hfollows]

end Url

/-! ### The address of the interface document -/

namespace Discovery

/-- The endpoint of a configuration has no slash at its end that could be left out. -/
theorem url_endpoint (config : ClientConfig) :
    url config.endpoint = config.endpoint ++ "/openapi/v3" := by
  rw [url, ClientConfig.endpoint, String.toList_ofList, Text.dropTrailing, Text.dropTrailing,
    List.reverse_reverse, List.dropWhile_idempotent]

open Url in
/-- The address of the interface document of a checked configuration, beside those of commands: it has
    the same scheme, host and port, and the same segments before its own two, exactly if another path can
    be written after the endpoint and the endpoint's path is not `//`. -/
theorem url_exact {config : ClientConfig} (context : Context) (hvalid : config.validate = .ok ()) :
    ∃ u, Url.read config.endpoint = .ok (.web u) ∧
    (∀ s : Session, s.endpoint = config.endpoint → ∀ plugin names, (∀ n ∈ names, Plain n) →
      s.url plugin names = .ok (Url.toText { u with
        path := root u.path ++ plugin.name :: s.apiVersion.toText :: names.map segmentText })) ∧
    ((∃ d, Url.read (call context config.endpoint).request.url = .ok (.web d) ∧
        d.scheme = u.scheme ∧ d.host = u.host ∧ d.port = u.port ∧
        d.path = root u.path ++ ["openapi", "v3"]) ↔
      Extensible (opening config.endpoint.toList) ∧ u.path ≠ ["", ""]) := by
  obtain ⟨u, hu⟩ := config.exists_web hvalid
  obtain ⟨lead, authority, after, blanks, hanatomy, hpath, hnone, hsome⟩ := exists_anatomy hu
  refine ⟨u, hu, fun s hs plugin names hplain => ?_, ?_⟩
  · rw [Session.url_eq (hs ▸ hu), Session.path_plain hplain]
  · rw [call, url_endpoint, hanatomy.extensible_iff]
    by_cases hedge : after = [] → blanks = []
    · obtain ⟨d, hd, hscheme, hhost, hport, hdpath⟩ := hsome hedge
      have hiff := pathOf_append_iff hanatomy.ends hanatomy.blank hedge
      rw [← hpath] at hiff
      rw [← hiff, ← hdpath]
      constructor
      · rintro ⟨d', hd', -, -, -, hpath'⟩
        rw [hd] at hd'
        cases hd'
        exact hpath'
      · exact fun hpath' => ⟨d, hd, hscheme, hhost, hport, hpath'⟩
    · rw [Classical.not_imp] at hedge
      refine ⟨?_, fun h => absurd h.1.1 hedge.2⟩
      rintro ⟨d, hd, -⟩
      exact absurd hd (hnone hedge.1 hedge.2 d)

def pathConfig : ClientConfig := { baseUrl := " http://slurm.test:6820/hpc//" }

def queryConfig : ClientConfig := { baseUrl := "http://slurm.test:6820/?site=a" }

open Url in
/-- With a path the interface document is below it, like everything else. -/
theorem url_exact_path : pathConfig.validate = .ok () ∧
    ∃ u d, Url.read pathConfig.endpoint = .ok (.web u) ∧
      Url.read (call ⟨0, none⟩ pathConfig.endpoint).request.url = .ok (.web d) ∧
      d.host = u.host ∧ d.path = root u.path ++ ["openapi", "v3"] := by
  have hvalid : pathConfig.validate = .ok () := rfl
  obtain ⟨u, hu, -, hexact⟩ := url_exact ⟨0, none⟩ hvalid
  have hbase : u.path ≠ ["", ""] := by
    have hread : Url.read pathConfig.endpoint = .ok (.web
        ⟨.http, "", .domain "slurm.test", some 6820, ["hpc"], none, none⟩) := rfl
    rw [hread] at hu
    cases hu
    decide
  obtain ⟨d, hd, -, hhost, -, hpath⟩ := hexact.mpr ⟨by decide, hbase⟩
  exact ⟨hvalid, u, d, hu, hd, hhost, hpath⟩

/-- With a query the path of the interface document has become a part of the query. -/
theorem asks_elsewhere : queryConfig.validate = .ok () ∧
    (⟨0, .v42, queryConfig.endpoint, none⟩ : Session).url .slurm ["nodes"] =
      .ok "http://slurm.test:6820/slurm/v0.0.42/nodes?site=a" ∧
    (call ⟨0, none⟩ queryConfig.endpoint).request.url = "http://slurm.test:6820/?site=a/openapi/v3" ∧
    ∃ d, Url.read (call ⟨0, none⟩ queryConfig.endpoint).request.url = .ok (.web d) ∧
      d.path = [""] ∧ d.query = some "site=a/openapi/v3" :=
  ⟨rfl, rfl, rfl, ⟨.http, "", .domain "slurm.test", some 6820, [""], some "site=a/openapi/v3", none⟩,
    rfl, rfl, rfl⟩

end Discovery

end SlurmLink

/-
`redact_url` of `vision_base/control.py`: a stream URL as it is logged and
acknowledged. How a URL is split and joined is the business of `urllib.parse`,
which is a parameter here, as `str.lower` is. Within the components the code
itself cuts: at the last `@` of the authority, at each `&` of the query and at
the first `=` of an item, so that a credential may hold any of the separators.
-/
import RetailVision.Lib.Fields
import Mathlib.Data.List.Forall2

set_option linter.all false

namespace RetailVision.Control

open RetailVision.Lib

abbrev Str := List Char

structure SplitResult where
  scheme : Str
  netloc : Str
  path : Str
  query : Str
  fragment : Str
deriving DecidableEq

def sensitiveQueryKeys : List Str :=
  ["password", "passwd", "pwd", "secret", "token", "auth", "authorization", "apikey", "api_key", "access_token", "accesskey", "key",
    "credential"].map String.toList

/-- `str.partition` -/
def partition (s : Str) (sep : Char) : Str × Str × Str :=
  match s.dropWhile (· ≠ sep) with
  | [] => (s, [], [])
  | c :: after => (s.takeWhile (· ≠ sep), [c], after)

/-- `s.rsplit(sep, 1)[1]`, of a string with the separator. -/
def rsplitLast (s : Str) (sep : Char) : Str := s.rtakeWhile (· ≠ sep)

section

variable (urlsplit : Str → Option SplitResult) (urlunsplit : SplitResult → Str) (lower : Str → Str)

def redactItem (item : Str) : Str :=
  let (key, sep, _) := partition item '='
  if sep ≠ [] ∧ lower key ∈ sensitiveQueryKeys then key ++ "=***".toList else item

def redactNetloc (netloc : Str) : Str := if '@' ∈ netloc then "***:***@".toList ++ rsplitLast netloc '@' else netloc

def redactQuery (query : Str) : Str := if query ≠ [] then ['&'].intercalate ((query.splitOn '&').map (redactItem lower)) else query

/-- The components as they are joined. -/
def redactParts (parts : SplitResult) : SplitResult where
  scheme := parts.scheme
  netloc := redactNetloc parts.netloc
  path := parts.path
  query := redactQuery lower parts.query
  fragment := parts.fragment

/-- A `ValueError` of `urlsplit` is `none`. -/
def redactUrl (url : Str) : Str :=
  if url = [] then url
  else
    match urlsplit url with
    | none => "<redacted url>".toList
    | some parts => urlunsplit (redactParts lower parts)

end

/-! ## What is secret -/

section

variable (lower : Str → Str)

/-- An item `key=v` of a sensitive key. -/
def SecretItem (key v item : Str) : Prop := '=' ∉ key ∧ lower key ∈ sensitiveQueryKeys ∧ item = key ++ '=' :: v

/-- A user info `u` before the host and port. -/
def UserAt (u host netloc : Str) : Prop := '@' ∉ host ∧ netloc = u ++ '@' :: host

/-- The components of two URLs that differ only in their secrets. -/
structure SecretsApart (p q : SplitResult) : Prop where
  scheme : p.scheme = q.scheme
  path : p.path = q.path
  fragment : p.fragment = q.fragment
  netloc : p.netloc = q.netloc ∨ ∃ u v host, UserAt u host p.netloc ∧ UserAt v host q.netloc
  query : List.Forall₂ (fun a b => a = b ∨ ∃ key v w, SecretItem lower key v a ∧ SecretItem lower key w b)
    (p.query.splitOn '&') (q.query.splitOn '&')

/-- The components `q` are those of `p` with a mask for each secret. -/
structure Masked (p q : SplitResult) : Prop where
  scheme : q.scheme = p.scheme
  path : q.path = p.path
  fragment : q.fragment = p.fragment
  netloc : ('@' ∉ p.netloc ∧ q.netloc = p.netloc) ∨ ∃ u host, UserAt u host p.netloc ∧ UserAt "***:***".toList host q.netloc
  query : List.Forall₂
    (fun a b => ((∀ key v, ¬ SecretItem lower key v a) ∧ b = a) ∨
      ∃ key v, SecretItem lower key v a ∧ SecretItem lower key "***".toList b)
    (p.query.splitOn '&') (q.query.splitOn '&')

end

/-! ## `urllib.parse` -/

/-- What the library is not asked to take for a delimiter: other user info and
other items of a query, in the masks of this module. -/
structure Reworded (p q : SplitResult) : Prop where
  scheme : q.scheme = p.scheme
  path : q.path = p.path
  fragment : q.fragment = p.fragment
  netloc : q.netloc = p.netloc ∨ ∃ u v host, UserAt u host p.netloc ∧ UserAt v host q.netloc ∧ ∀ c ∈ v, c = '*' ∨ c = ':'
  query : (q.query = [] ↔ p.query = []) ∧ ∀ c ∈ q.query, c ∈ p.query ∨ c ∈ "&=*".toList

/-- The empty URL is the one of empty components. Where components are joined to
a URL that splits into them, so are others of the same form. -/
structure Documented (urlsplit : Str → Option SplitResult) (urlunsplit : SplitResult → Str) : Prop where
  splitEmpty : urlsplit [] = some ⟨[], [], [], [], []⟩
  joinEmpty : urlunsplit ⟨[], [], [], [], []⟩ = []
  reworded : ∀ p q, Reworded p q → urlsplit (urlunsplit p) = some p → urlsplit (urlunsplit q) = some q

/-! ## Items -/

variable {lower : Str → Str} {sep : Char} {a b key v w item netloc query : Str}

theorem partition_append (h : sep ∉ a) : partition (a ++ sep :: b) sep = (a, [sep], b) := by
  rw [partition, dropWhile_ne_append h, takeWhile_ne_append h]

theorem partition_of_not_mem (h : sep ∉ a) : partition a sep = (a, [], []) := by
  rw [partition, dropWhile_ne_of_not_mem h]

theorem redactItem_secret (h : SecretItem lower key v item) : redactItem lower item = key ++ "=***".toList := by
  obtain ⟨hkey, hmem, rfl⟩ := h
  rw [redactItem, partition_append hkey]
  exact if_pos ⟨List.cons_ne_nil _ _, hmem⟩

theorem redactItem_plain (h : ∀ key v, ¬ SecretItem lower key v item) : redactItem lower item = item := by
  rw [redactItem]
  by_cases hmem : '=' ∈ item
  · obtain ⟨key, v, rfl, hkey⟩ := List.eq_append_cons_of_mem hmem
    rw [partition_append hkey]
    exact if_neg fun hs => h key v ⟨hkey, hs.2, rfl⟩
  · rw [partition_of_not_mem hmem]
    exact if_neg fun hs => hs.1 rfl

/-- An item is masked, or stays as it is. -/
theorem redactItem_cases (lower : Str → Str) (item : Str) :
    (∃ key v, SecretItem lower key v item ∧ redactItem lower item = key ++ "=***".toList) ∨
      ((∀ key v, ¬ SecretItem lower key v item) ∧ redactItem lower item = item) := by
  by_cases h : ∃ key v, SecretItem lower key v item
  · obtain ⟨key, v, h⟩ := h
    exact .inl ⟨key, v, h, redactItem_secret h⟩
  · have hplain : ∀ key v, ¬ SecretItem lower key v item := fun key v hs => h ⟨key, v, hs⟩
    exact .inr ⟨hplain, redactItem_plain hplain⟩

theorem redactItem_chars : ∀ c ∈ redactItem lower item, c ∈ item ∨ c ∈ "=*".toList := by
  intro c hc
  rcases redactItem_cases lower item with ⟨key, v, h, heq⟩ | ⟨-, heq⟩
  · rw [heq, List.mem_append] at hc
    rcases hc with hc | hc
    · exact .inl (by simp [h.2.2, hc])
    · exact .inr (by simpa using hc)
  · rw [heq] at hc
    exact .inl hc

theorem redactItem_eq_nil : redactItem lower item = [] ↔ item = [] := by
  rcases redactItem_cases lower item with ⟨key, v, h, heq⟩ | ⟨-, heq⟩
  · rw [heq, h.2.2]
    simp
  · rw [heq]

/-! ## Components -/

theorem redactNetloc_user {u host : Str} (h : UserAt u host netloc) : redactNetloc netloc = "***:***@".toList ++ host := by
  obtain ⟨hhost, rfl⟩ := h
  rw [redactNetloc, if_pos (by simp), rsplitLast, rtakeWhile_ne_append hhost]

/-- The empty query is one item, which stays. -/
theorem redactQuery_eq : redactQuery lower query = ['&'].intercalate ((query.splitOn '&').map (redactItem lower)) := by
  rw [redactQuery]
  split
  · rfl
  · next hempty =>
    rw [not_not.mp hempty, List.splitOn_nil, List.map_singleton, List.intercalate_singleton,
      redactItem_plain fun key v hs => by simpa using hs.2.2]

theorem splitOn_redactQuery : (redactQuery lower query).splitOn '&' = (query.splitOn '&').map (redactItem lower) := by
  rw [redactQuery_eq]
  refine List.splitOn_intercalate '&' (fun item hitem => ?_) (by simp)
  obtain ⟨item, hmem, rfl⟩ := List.mem_map.mp hitem
  intro hc
  rcases redactItem_chars _ hc with hc | hc
  · exact (mem_splitOn hmem).1 hc
  · simp at hc

variable {p q : SplitResult}

theorem redactParts_apart (h : SecretsApart lower p q) : redactParts lower p = redactParts lower q := by
  have hnetloc : redactNetloc p.netloc = redactNetloc q.netloc := by
    rcases h.netloc with heq | ⟨u, v, host, hp, hq⟩
    · rw [heq]
    · rw [redactNetloc_user hp, redactNetloc_user hq]
  have hitems : List.Forall₂ (fun a b => redactItem lower a = redactItem lower b) (p.query.splitOn '&') (q.query.splitOn '&') := by
    refine h.query.imp fun a b hab => ?_
    rcases hab with rfl | ⟨key, v, w, ha, hb⟩
    · rfl
    · rw [redactItem_secret ha, redactItem_secret hb]
  have hmap : (p.query.splitOn '&').map (redactItem lower) = (q.query.splitOn '&').map (redactItem lower) := by
    rw [← List.forall₂_eq_eq_eq, List.forall₂_map_left_iff, List.forall₂_map_right_iff]
    exact hitems
  have hquery : redactQuery lower p.query = redactQuery lower q.query := by rw [redactQuery_eq, redactQuery_eq, hmap]
  simp only [redactParts, h.scheme, h.path, h.fragment, hnetloc, hquery]

theorem netloc_cases (netloc : Str) :
    ('@' ∉ netloc ∧ redactNetloc netloc = netloc) ∨
      ∃ u host, UserAt u host netloc ∧ UserAt "***:***".toList host (redactNetloc netloc) := by
  by_cases h : '@' ∈ netloc
  · obtain ⟨u, host, heq, hhost⟩ := exists_last h
    have huser : UserAt u host netloc := ⟨hhost, heq⟩
    exact .inr ⟨u, host, huser, hhost, redactNetloc_user huser⟩
  · exact .inl ⟨h, if_neg h⟩

theorem redactParts_masked (p : SplitResult) : Masked lower p (redactParts lower p) where
  scheme := rfl
  path := rfl
  fragment := rfl
  netloc := netloc_cases p.netloc
  query := by
    rw [redactParts, splitOn_redactQuery, List.forall₂_map_right_iff, List.forall₂_same]
    intro item _
    rcases redactItem_cases lower item with ⟨key, v, h, heq⟩ | ⟨hplain, heq⟩
    · exact .inr ⟨key, v, h, h.1, h.2.1, heq⟩
    · exact .inl ⟨hplain, heq⟩

theorem redactParts_reworded (p : SplitResult) : Reworded p (redactParts lower p) where
  scheme := rfl
  path := rfl
  fragment := rfl
  netloc := by
    rcases netloc_cases p.netloc with ⟨_, h⟩ | ⟨u, host, hu, hv⟩
    · exact .inl h
    · exact .inr ⟨u, _, host, hu, hv, by simp⟩
  query := by
    refine ⟨?_, fun c hc => ?_⟩
    · rw [redactParts, ← splitOn_eq_nil_singleton, splitOn_redactQuery, List.map_eq_singleton_iff]
      simp only [redactItem_eq_nil, exists_eq_right]
      exact splitOn_eq_nil_singleton
    · rw [redactParts, redactQuery_eq] at hc
      rcases mem_intercalate hc with rfl | ⟨item, hitem, hc⟩
      · exact .inr (by decide)
      · obtain ⟨item, hmem, rfl⟩ := List.mem_map.mp hitem
        rcases redactItem_chars c hc with hc | hc
        · exact .inl ((mem_splitOn hmem).2 hc)
        · exact .inr (List.mem_cons_of_mem _ hc)

section

variable {urlsplit : Str → Option SplitResult} {urlunsplit : SplitResult → Str} (hlib : Documented urlsplit urlunsplit) {url : Str}

include hlib

/-- Also of the empty URL, which the code returns before it splits. -/
theorem redactUrl_eq (h : urlsplit url = some p) : redactUrl urlsplit urlunsplit lower url = urlunsplit (redactParts lower p) := by
  rw [redactUrl]
  split
  · next hempty =>
    rw [hempty, hlib.splitEmpty] at h
    obtain rfl := Option.some.inj h
    rw [hempty]
    exact hlib.joinEmpty.symm
  · rw [h]

end

/-! ## URLs with an authority -/

namespace Authority

/-- The split of `scheme://authority/path?query#fragment`; others are refused. -/
def urlsplit (url : Str) : Option SplitResult :=
  let (scheme, _, rest) := partition url ':'
  match rest with
  | '/' :: '/' :: rest =>
    let netloc := rest.takeWhile (· ∉ "/?#".toList)
    let (rest, _, fragment) := partition (rest.dropWhile (· ∉ "/?#".toList)) '#'
    let (path, _, query) := partition rest '?'
    some { scheme := scheme, netloc := netloc, path := path, query := query, fragment := fragment }
  | _ => if url = [] then some ⟨[], [], [], [], []⟩ else none

def joined (sep : Char) (s : Str) : Str := if s = [] then [] else sep :: s

def urlunsplit (p : SplitResult) : Str :=
  if p = ⟨[], [], [], [], []⟩ then []
  else p.scheme ++ "://".toList ++ p.netloc ++ p.path ++ joined '?' p.query ++ joined '#' p.fragment

/-- What `urlsplit` makes, and `urlunsplit` joins. -/
structure Regular (p : SplitResult) : Prop where
  scheme : ':' ∉ p.scheme
  netloc : ∀ c ∈ p.netloc, c ∉ "/?#".toList
  path : p.path = [] ∨ ∃ rest, p.path = '/' :: rest
  pathQuery : '?' ∉ p.path
  pathFragment : '#' ∉ p.path
  query : '#' ∉ p.query

theorem partition_spec (s : Str) (sep : Char) :
    sep ∉ (partition s sep).1 ∧ (partition s sep).1 <+: s ∧ (partition s sep).2.2 ⊆ s := by
  by_cases h : sep ∈ s
  · obtain ⟨a, b, rfl, ha⟩ := List.eq_append_cons_of_mem h
    rw [partition_append ha]
    exact ⟨ha, by simp, fun c hc => by simp [hc]⟩
  · rw [partition_of_not_mem h]
    exact ⟨h, List.prefix_refl s, List.nil_subset s⟩

/-- What ends an authority, and is neither `?` nor `#`. -/
theorem path_head {rest path : Str} (h : path <+: rest.dropWhile (· ∉ "/?#".toList)) (hquery : '?' ∉ path) (hfragment : '#' ∉ path) :
    path = [] ∨ ∃ r, path = '/' :: r := by
  cases path with
  | nil => exact .inl rfl
  | cons c r =>
    obtain ⟨tail, htail⟩ := h
    have hhead := List.head?_dropWhile_not (· ∉ "/?#".toList) rest
    rw [← htail] at hhead
    simp only [List.mem_cons, not_or] at hquery hfragment
    have hc : c = '/' := by simpa [Ne.symm hquery.1, Ne.symm hfragment.1] using hhead
    exact .inr ⟨r, by rw [hc]⟩

theorem urlsplit_regular {url : Str} (h : urlsplit url = some p) : Regular p := by
  obtain ⟨hscheme, -, -⟩ := partition_spec url ':'
  rw [urlsplit] at h
  dsimp only at h
  split at h
  · next rest _ =>
    obtain rfl := Option.some.inj h
    obtain ⟨hfragment, hprefix, -⟩ := partition_spec (rest.dropWhile (· ∉ "/?#".toList)) '#'
    obtain ⟨hquery, hpath, hsub⟩ := partition_spec (partition (rest.dropWhile (· ∉ "/?#".toList)) '#').1 '?'
    have hpathFragment := fun hc => hfragment (hpath.subset hc)
    exact ⟨hscheme, fun c hc => by simpa using List.mem_takeWhile_imp hc, path_head (hpath.trans hprefix) hquery hpathFragment,
      hquery, hpathFragment, fun hc => hfragment (hsub hc)⟩
  · split at h
    · obtain rfl := Option.some.inj h
      exact ⟨by simp, by simp, .inl rfl, by simp, by simp, by simp⟩
    · cases h

theorem partition_joined (h : sep ∉ a) : ∃ s, partition (a ++ joined sep b) sep = (a, s, b) := by
  unfold joined
  split
  · next hb => exact ⟨[], by rw [List.append_nil, partition_of_not_mem h, hb]⟩
  · exact ⟨[sep], partition_append h⟩

/-- The authority ends where the path begins, or what follows an empty one. -/
theorem netloc_ends (h : Regular p) :
    (p.path ++ joined '?' p.query ++ joined '#' p.fragment).takeWhile (· ∉ "/?#".toList) = [] ∧
      (p.path ++ joined '?' p.query ++ joined '#' p.fragment).dropWhile (· ∉ "/?#".toList) =
        p.path ++ joined '?' p.query ++ joined '#' p.fragment := by
  rcases h.path with hpath | ⟨rest, hpath⟩
  · rw [hpath]
    unfold joined
    split <;> split <;> simp
  · rw [hpath]
    simp

theorem urlsplit_urlunsplit (h : Regular p) : urlsplit (urlunsplit p) = some p := by
  rw [urlunsplit]
  split
  · next hempty =>
    rw [hempty]
    rfl
  · obtain ⟨htake, hdrop⟩ := netloc_ends h
    have hnetloc : ∀ c ∈ p.netloc, decide (c ∉ "/?#".toList) = true := by simpa using h.netloc
    have hjoined : '#' ∉ p.path ++ joined '?' p.query := by
      rw [List.mem_append, not_or]
      refine ⟨h.pathFragment, ?_⟩
      unfold joined
      split
      · simp
      · simpa using h.query
    obtain ⟨s, hs⟩ := partition_joined (b := p.fragment) hjoined
    obtain ⟨t, ht⟩ := partition_joined (b := p.query) h.pathQuery
    have hassoc : p.scheme ++ "://".toList ++ p.netloc ++ p.path ++ joined '?' p.query ++ joined '#' p.fragment =
        p.scheme ++ ':' :: '/' :: '/' :: (p.netloc ++ (p.path ++ joined '?' p.query ++ joined '#' p.fragment)) := by simp
    rw [hassoc, urlsplit, partition_append h.scheme]
    simp only
    rw [List.takeWhile_append_of_pos hnetloc, List.dropWhile_append_of_pos hnetloc, htake, hdrop, hs]
    dsimp only
    rw [ht, List.append_nil]

theorem documented : Documented urlsplit urlunsplit where
  splitEmpty := rfl
  joinEmpty := rfl
  reworded p q hrw hsplit := by
    have h := urlsplit_regular hsplit
    refine urlsplit_urlunsplit ⟨by rw [hrw.scheme]; exact h.scheme, ?_, by rw [hrw.path]; exact h.path,
      by rw [hrw.path]; exact h.pathQuery, by rw [hrw.path]; exact h.pathFragment, fun hc => ?_⟩
    · rcases hrw.netloc with heq | ⟨u, v, host, hp, hq, hmask⟩
      · rw [heq]
        exact h.netloc
      · intro c hc
        rw [hq.2, List.mem_append, List.mem_cons] at hc
        rcases hc with hc | rfl | hc
        · rcases hmask c hc with rfl | rfl <;> decide
        · decide
        · exact h.netloc c (by simp [hp.2, hc])
    · rcases hrw.query.2 _ hc with hc | hc
      · exact h.query hc
      · exact absurd hc (by decide)

end Authority

end RetailVision.Control

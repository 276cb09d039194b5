/-
Every line has its reply. An operation pushes exactly one, or throws before it
does, and then `handle_line` pushes one that cannot throw. What can throw is
the reply to a line that does not parse: its text quotes the line's bytes, and
`dump` takes UTF-8 only.
-/
import RetailVision.ControlSocket

set_option linter.all false

namespace RetailVision.ControlSocket

open Lib

variable {lib : Nlohmann} {w : World} {req : String} {j line : Json} {e : Effect} {l : Bytes}

/-! ## One reply a line -/

theorem utf8_text (s : String) : Utf8 (utf8 s) := by
  have hb : ByteArray.mk (utf8 s).toArray = s.toByteArray := by simp [utf8]
  unfold Utf8
  rw [hb]
  exact s.isValidUTF8

/-- The effect of an operation on a line: one reply with the line's `req`, or
an exception and none. -/
structure OneReply (line : Json) (e : Effect) : Prop where
  pushed : e.thrown = none → ∃ r, e.records.filter (·.isReply) = [r] ∧ r.req = jsonGetStr line "req" "" ∧
    ∀ req body jpeg, r = .snapshot req body jpeg → jsonGetStr line "op" "" = "snapshot"
  thrown : e.thrown ≠ none → e.records.filter (·.isReply) = []

theorem reply_ok {applied : Json} : reply lib req (.ok applied) = ⟨[.reply req (.ok applied)], none⟩ := rfl

theorem reply_utf8 {err : Bytes} (h : Utf8 err) : reply lib req (.error err) = ⟨[.reply req (.error err)], none⟩ := by
  simp [reply, h]

theorem reply_not_utf8 {err : Bytes} (h : ¬ Utf8 err) : reply lib req (.error err) = ⟨[], some (lib.dumpError err)⟩ := by
  simp [reply, h]

theorem oneReply_reply {result : Except Bytes Json} : OneReply line (reply lib (jsonGetStr line "req" "") result) := by
  have hone : ∀ result, OneReply line ⟨[.reply (jsonGetStr line "req" "") result], none⟩ :=
    fun result => ⟨fun _ => ⟨_, rfl, rfl, fun _ _ _ he => by cases he⟩, fun h => absurd rfl h⟩
  cases result with
  | ok applied => exact hone _
  | error err =>
    by_cases h : Utf8 err
    · rw [reply_utf8 h]
      exact hone _
    · rw [reply_not_utf8 h]
      exact ⟨fun h => (by cases h), fun _ => rfl⟩

theorem OneReply.push (h : OneReply line e) {index : Nat} {state : String} :
    OneReply line (e.push (.streamState index state)) := ⟨h.pushed, h.thrown⟩

/-- After what has pushed no reply. -/
theorem OneReply.after {records : List Record} (h : OneReply line e) (hr : records.filter (·.isReply) = []) :
    OneReply line { e with records := records ++ e.records } := by
  have hf : (records ++ e.records).filter (·.isReply) = e.records.filter (·.isReply) := by
    rw [List.filter_append, hr, List.nil_append]
  constructor
  case pushed => intro hn; rw [hf]; exact h.pushed hn
  case thrown => intro hn; rw [hf]; exact h.thrown hn

theorem oneReply_opAdd : OneReply line (opAdd lib w line) := by
  simp only [opAdd]
  split
  · exact oneReply_reply
  · cases w.addStream with
    | ok u =>
      split
      · exact oneReply_reply.push
      · exact oneReply_reply
    | error err =>
      split
      · exact oneReply_reply.push
      · exact oneReply_reply

theorem oneReply_opRemove : OneReply line (opRemove lib w line) := by
  simp only [opRemove]
  repeat' split
  all_goals first | exact oneReply_reply | exact oneReply_reply.push

theorem oneReply_opSetThreshold : OneReply line (opSetThreshold lib w line) := by
  simp only [opSetThreshold]
  repeat' split
  all_goals exact oneReply_reply

theorem oneReply_opConfigureAnalyzer : OneReply line (opConfigureAnalyzer lib w line) := by
  simp only [opConfigureAnalyzer]
  repeat' split
  all_goals exact oneReply_reply

theorem oneReply_opSnapshot (hop : jsonGetStr line "op" "" = "snapshot") : OneReply line (opSnapshot lib w line) := by
  simp only [opSnapshot]
  repeat' split
  all_goals first
    | exact oneReply_reply
    | exact ⟨fun _ => ⟨_, rfl, rfl, fun _ _ _ _ => hop⟩, fun h => absurd rfl h⟩

theorem oneReply_dispatch : OneReply line (dispatch lib w line) := by
  simp only [dispatch]
  split
  · exact oneReply_opAdd
  split
  · exact oneReply_opRemove
  split
  · exact oneReply_opSetThreshold
  split
  · exact oneReply_opConfigureAnalyzer
  split
  · next hop => exact oneReply_opSnapshot hop
  split
  · exact oneReply_reply
  · exact oneReply_reply

/-- The line that stops the runtime does not throw. -/
theorem dispatch_stop (hop : jsonGetStr line "op" "" = "stop") : (dispatch lib w line).thrown = none := by
  simp [dispatch, hop, opStop, reply_ok]

/-- **A line is handled with one reply** and without an exception: where its
operation throws, what it is told instead is UTF-8. -/
theorem handleLine_spec : OneReply line (handleLine lib w line).1 ∧ (handleLine lib w line).1.thrown = none ∧
    (handleLine lib w line).2 = decide (jsonGetStr line "op" "" = "stop") := by
  have hone := @oneReply_dispatch lib w line
  simp only [handleLine]
  split
  · next hn => exact ⟨hone, hn, rfl⟩
  · next what hw =>
    have hns : jsonGetStr line "op" "" ≠ "stop" := by
      intro hop
      rw [dispatch_stop hop] at hw
      cases hw
    refine ⟨oneReply_reply.after (hone.thrown (by simp [hw])), ?_, by simp [hns]⟩
    rw [reply_utf8 (utf8_text _)]

/-! ## One line -/

variable {n : Nat} {ws : Nat → World} {ls ls' : List Bytes}

theorem jsonGetStr_find {key s : String} (h : j.find key = some (.str s)) : jsonGetStr j key "" = s := by
  simp [jsonGetStr, h]

theorem find_of_jsonGetStr {key s : String} (h : jsonGetStr j key "" = s) (hs : s ≠ "") :
    j.find key = some (.str s) := by
  unfold jsonGetStr at h
  split at h
  · next hf => rw [hf, h]
  · exact absurd h.symm hs

theorem serveLine_reportable (h : Reportable lib l) : ∃ r, (serveLine lib ws n l).1.filter (·.isReply) = [r] ∧
    Answers lib l r ∧ (serveLine lib ws n l).2 = if isStop lib l then some .stopped else none := by
  cases hp : lib.parse l with
  | error what =>
    refine ⟨.reply "" (.error (badJson what)), ?_, ⟨fun j req hj => ?_, fun _ _ _ he => by cases he⟩, ?_⟩
    · simp [serveLine, hp, reply_utf8 (h what hp), Record.isReply]
    · rw [hp] at hj
      cases hj
    · simp [serveLine, hp, reply_utf8 (h what hp), isStop]
  | ok j =>
    obtain ⟨hone, hthrown, hstop⟩ := @handleLine_spec lib (ws n) j
    obtain ⟨r, hr, hreq, hsnap⟩ := hone.pushed hthrown
    have hs : serveLine lib ws n l = ((handleLine lib (ws n) j).1.records,
        if jsonGetStr j "op" "" = "stop" then some .stopped else none) := by
      simp only [serveLine, hp, hthrown, hstop, decide_eq_true_eq]
    refine ⟨r, by rw [hs]; exact hr, ⟨fun j' req hj hf => ?_, fun req body jpeg he => ?_⟩, ?_⟩
    · rw [hp] at hj
      cases hj
      rw [hreq, jsonGetStr_find hf]
    · exact ⟨j, hp, find_of_jsonGetStr (hsnap req body jpeg he) (by simp)⟩
    · simp [hs, isStop, hp]

theorem serveLine_throws (h : ¬ Reportable lib l) : ∃ what, (serveLine lib ws n l).2 = some (.threw what) := by
  simp only [Reportable, not_forall] at h
  obtain ⟨what, hp, hu⟩ := h
  exact ⟨lib.dumpError (badJson what), by simp [serveLine, hp, reply_not_utf8 hu]⟩

/-! ## The lines of a buffer -/

theorem owed_append : owed lib (ls ++ ls') = owed lib ls ++ if ended lib ls then [] else owed lib ls' := by
  induction ls with
  | nil => simp [owed, ended]
  | cons raw ls ih =>
    simp only [List.cons_append, owed, ended]
    split
    · exact ih
    · split
      · simp
      · cases isStop lib (stripCr raw) with
        | true => simp
        | false => simp [ih]

theorem ended_append : ended lib (ls ++ ls') = (ended lib ls || ended lib ls') := by
  induction ls with
  | nil => simp [ended]
  | cons raw ls ih =>
    simp only [List.cons_append, ended]
    split
    · exact ih
    · split
      · simp
      · rw [ih, Bool.or_assoc]

/-- Where all that is owed can be told, it is, and the service ends where a
stop line or an over-long line says so. -/
theorem serveLines_reportable (h : ∀ l ∈ owed lib ls, Reportable lib l) :
    List.Forall₂ (Answers lib) (owed lib ls) ((serveLines lib ws n ls).1.filter (·.isReply)) ∧
      (∀ what, (serveLines lib ws n ls).2 ≠ some (.threw what)) ∧
      ((serveLines lib ws n ls).2 = none ↔ ended lib ls = false) := by
  induction ls generalizing n with
  | nil => simp [owed, ended, serveLines]
  | cons raw ls ih =>
    by_cases hempty : stripCr raw = []
    · simp only [owed, hempty, if_true] at h
      simp only [owed, ended, serveLines, hempty, if_true]
      exact ih h
    by_cases hlong : kMaxLine < (stripCr raw).length
    · simp [owed, ended, serveLines, hempty, hlong]
    simp only [owed, ended, serveLines, hempty, hlong, if_false] at h ⊢
    obtain ⟨r, hr, ha, hend⟩ := @serveLine_reportable lib (stripCr raw) n ws (h _ (by simp))
    cases hstop : isStop lib (stripCr raw) with
    | true =>
      simp only [hstop, if_true] at hend ⊢
      rw [← Prod.mk.eta (p := serveLine lib ws n (stripCr raw)), hend]
      simp only [hr]
      exact ⟨.cons ha .nil, by simp, by simp⟩
    | false =>
      simp only [hstop, Bool.false_eq_true, if_false, Bool.false_or] at hend h ⊢
      obtain ⟨hrest, hnt, hnone⟩ := @ih (n + 1) fun l hl => h l (by simp [hl])
      rw [← Prod.mk.eta (p := serveLine lib ws n (stripCr raw)), hend]
      simp only [List.filter_append, hr]
      exact ⟨.cons ha hrest, hnt, hnone⟩

/-- Where some of it cannot, an exception is thrown. -/
theorem serveLines_throws (h : l ∈ owed lib ls) (hl : ¬ Reportable lib l) :
    ∃ what, (serveLines lib ws n ls).2 = some (.threw what) := by
  induction ls generalizing n with
  | nil => cases h
  | cons raw ls ih =>
    by_cases hempty : stripCr raw = []
    · simp only [owed, hempty, if_true] at h
      simp only [serveLines, hempty, if_true]
      exact ih h
    by_cases hlong : kMaxLine < (stripCr raw).length
    · simp [owed, hempty, hlong] at h
    simp only [owed, serveLines, hempty, hlong, if_false] at h ⊢
    by_cases hraw : Reportable lib (stripCr raw)
    · obtain ⟨r, hr, ha, hend⟩ := @serveLine_reportable lib (stripCr raw) n ws hraw
      have hne : l ≠ stripCr raw := fun he => hl (he ▸ hraw)
      cases hstop : isStop lib (stripCr raw) with
      | true => simp [hstop, hne] at h
      | false =>
        simp only [hstop, Bool.false_eq_true, if_false, List.mem_cons, hne, false_or] at hend h
        rw [← Prod.mk.eta (p := serveLine lib ws n (stripCr raw)), hend]
        exact ih h
    · obtain ⟨what, hw⟩ := @serveLine_throws lib (stripCr raw) n ws hraw
      rw [← Prod.mk.eta (p := serveLine lib ws n (stripCr raw)), hw]
      exact ⟨what, rfl⟩

/-! ## The reads -/

variable {buf chunk : Bytes} {reads : List Bytes}

/-- `Answered`, from within the service: with a buffer, and some lines counted. -/
structure Served (lib : Nlohmann) (ws : Nat → World) (n : Nat) (buf : Bytes) (reads : List Bytes) : Prop where
  replies : List.Forall₂ (Answers lib) (owed lib (splitLines LF (buf ++ reads.flatten)).1)
    ((serve lib ws n buf reads).1.filter (·.isReply))
  noThrow : ∀ what, (serve lib ws n buf reads).2 ≠ .threw what

/-- The condition for it. -/
structure Tellable (lib : Nlohmann) (buf : Bytes) (reads : List Bytes) : Prop where
  reportable : ∀ l ∈ owed lib (splitLines LF (buf ++ reads.flatten)).1, Reportable lib l
  notCut : ∀ before after, reads = before ++ after → ¬ CutAtCr lib buf before after

theorem length_stripCr : l.length ≤ (stripCr l).length + 1 := by
  unfold stripCr
  split
  · rw [List.length_dropLast]
    omega
  · omega

/-- A line over the cap is over-long, or it is one of `kMaxLine` bytes and a CR. -/
theorem owed_overlong (hl : kMaxLine < l.length) :
    (∀ ls, owed lib (l :: ls) = [] ∧ ended lib (l :: ls) = true) ∨
      (l.length = kMaxLine + 1 ∧ l.getLast? = some CR ∧ ∀ ls, owed lib (l :: ls) ≠ []) := by
  have hlen := @length_stripCr l
  have hmax : 0 < kMaxLine := by decide
  have hne : stripCr l ≠ [] := by
    intro he
    rw [he, List.length_nil] at hlen
    omega
  by_cases hlong : kMaxLine < (stripCr l).length
  · exact .inl fun ls => ⟨by simp [owed, hne, hlong], by simp [ended, hne, hlong]⟩
  · refine .inr ⟨by omega, ?_, fun ls => by simp [owed, hne, hlong]⟩
    by_contra hcr
    have : stripCr l = l := by simp [stripCr, hcr]
    rw [this] at hlong
    exact hlong hl

/-- Cut at its CR, a line is owed a reply. -/
theorem owed_of_cr (hl : l.length = kMaxLine + 1) (hcr : l.getLast? = some CR) : owed lib (l :: ls) ≠ [] := by
  have hmax : 0 < kMaxLine := by decide
  have hlen : (stripCr l).length = kMaxLine := by
    simp only [stripCr, hcr, if_true, List.length_dropLast]
    omega
  have hne : stripCr l ≠ [] := by
    intro he
    rw [he, List.length_nil] at hlen
    omega
  have hlong : ¬ kMaxLine < (stripCr l).length := by omega
  simp [owed, hne, hlong]

/-- What a read adds to the lines. -/
theorem lines_cons : (splitLines LF (buf ++ (chunk :: reads).flatten)).1 =
    (splitLines LF (buf ++ chunk)).1 ++ (splitLines LF ((splitLines LF (buf ++ chunk)).2 ++ reads.flatten)).1 := by
  rw [List.flatten_cons, ← List.append_assoc, splitLines_append]

theorem rest_cons : (splitLines LF (buf ++ (chunk :: reads).flatten)).2 =
    (splitLines LF ((splitLines LF (buf ++ chunk)).2 ++ reads.flatten)).2 := by
  rw [List.flatten_cons, ← List.append_assoc, splitLines_append]

/-- A buffer between two reads is not cut there. -/
theorem not_cutAtCr_nil (hbuf : LF ∉ buf) (hlen : buf.length ≤ kMaxLine) : ¬ CutAtCr lib buf [] reads := by
  intro hcut
  have hl := hcut.length
  rw [List.flatten_nil, List.append_nil, splitLines_of_not_mem hbuf] at hl
  dsimp only at hl
  omega

/-- A cut after a read is one in what the read has left. -/
theorem cutAtCr_cons {before after : List Bytes} (hn : ended lib (splitLines LF (buf ++ chunk)).1 = false) :
    CutAtCr lib buf (chunk :: before) after ↔ CutAtCr lib (splitLines LF (buf ++ chunk)).2 before after := by
  constructor
  · rintro ⟨h1, h2, h3, h4⟩
    rw [lines_cons, ended_append, hn, Bool.false_or] at h1
    rw [rest_cons] at h2 h3
    exact ⟨h1, h2, h3, h4⟩
  · rintro ⟨h1, h2, h3, h4⟩
    exact ⟨by rw [lines_cons, ended_append, hn, h1]; rfl, by rw [rest_cons]; exact h2, by rw [rest_cons]; exact h3, h4⟩

/-- A read that leaves more than the cap: what comes after it is owed nothing,
or the read has cut a line at its CR. -/
theorem tellable_overlong (hlong : kMaxLine < buf.length) (hbuf : LF ∉ buf) :
    Tellable lib buf reads ↔ owed lib (splitLines LF (buf ++ reads.flatten)).1 = [] := by
  rcases splitLines_cases LF reads.flatten with hno | ⟨l, ys, he, hl⟩
  · -- no line is ever completed
    have hlines : ∀ before after : List Bytes, reads = before ++ after → LF ∉ before.flatten ++ after.flatten := by
      intro before after hr
      rwa [hr, List.flatten_append] at hno
    have hmem : LF ∉ buf ++ reads.flatten := by
      simp only [List.mem_append, not_or]
      exact ⟨hbuf, hno⟩
    rw [splitLines_of_not_mem hmem]
    refine iff_of_true ⟨?_, fun before after hr hcut => ?_⟩ rfl
    · rw [splitLines_of_not_mem hmem]
      intro l hl
      cases hl
    · have hlf := List.mem_of_mem_head? hcut.lf
      exact hlines before after hr (List.mem_append_right _ hlf)
  · have hbl : LF ∉ buf ++ l := by
      simp only [List.mem_append, not_or]
      exact ⟨hbuf, hl⟩
    have hsplit : (splitLines LF (buf ++ reads.flatten)).1 = (buf ++ l) :: (splitLines LF ys).1 := by
      rw [he, ← List.append_assoc, splitLines_line hbl]
    have hlongl : kMaxLine < (buf ++ l).length := by
      rw [List.length_append]
      omega
    rw [hsplit]
    rcases @owed_overlong lib (buf ++ l) hlongl with hover | ⟨hlen, hcr, hsome⟩
    · refine iff_of_true ⟨?_, fun before after hr hcut => ?_⟩ (hover _).1
      · rw [hsplit, (hover _).1]
        intro l hl
        cases hl
      · rw [hr, List.flatten_append] at he
        rcases splitLines_cases LF before.flatten with hno | ⟨l', zs, hb, hl'⟩
        · -- the cut is before the end of this line, which is over-long
          obtain ⟨zs, ha⟩ := List.head?_eq_some_iff.mp hcut.lf
          rw [ha] at he
          have hbf := line_unique hno hl he
          have hlen := hcut.length
          have hcr := hcut.cr
          rw [hbf, splitLines_of_not_mem hbl] at hlen hcr
          exact owed_of_cr hlen hcr (hover []).1
        · -- or after it
          rw [hb, List.append_assoc, List.cons_append] at he
          have hbf := line_unique hl' hl he
          have hn := hcut.notEnded
          rw [hb, hbf, ← List.append_assoc, splitLines_line hbl, (hover _).2] at hn
          cases hn
    · refine iff_of_false (fun ht => ?_) (hsome _)
      have hl0 : l = [] := by
        rw [List.length_append] at hlen
        exact List.eq_nil_of_length_eq_zero (by omega)
      subst hl0
      have hrest : splitLines LF (buf ++ ([] : List Bytes).flatten) = ([], buf) := by
        rw [List.flatten_nil, List.append_nil, splitLines_of_not_mem hbuf]
      rw [List.append_nil] at hlen hcr
      refine ht.notCut [] reads rfl ⟨by rw [hrest]; rfl, by rw [hrest]; exact hlen, by rw [hrest]; exact hcr, ?_⟩
      rw [he]
      rfl

/-- A read after which the service is over, or goes on within the cap. -/
theorem tellable_cons (hbuf : LF ∉ buf) (hlen : buf.length ≤ kMaxLine) : Tellable lib buf (chunk :: reads) ↔
    (∀ l ∈ owed lib (splitLines LF (buf ++ chunk)).1, Reportable lib l) ∧
      (ended lib (splitLines LF (buf ++ chunk)).1 = false → Tellable lib (splitLines LF (buf ++ chunk)).2 reads) := by
  constructor
  · rintro ⟨hrep, hcut⟩
    rw [lines_cons, owed_append] at hrep
    refine ⟨fun l hl => hrep l (List.mem_append_left _ hl), fun hn => ⟨fun l hl => hrep l ?_, fun before after hr hc => ?_⟩⟩
    · simp only [hn, Bool.false_eq_true, if_false]
      exact List.mem_append_right _ hl
    · exact hcut (chunk :: before) after (by rw [hr]; rfl) ((cutAtCr_cons hn).mpr hc)
  · rintro ⟨hrep, hrest⟩
    cases hn : ended lib (splitLines LF (buf ++ chunk)).1 with
    | true =>
      refine ⟨fun l hl => ?_, fun before after hr hc => ?_⟩
      · rw [lines_cons, owed_append, hn, if_pos rfl, List.append_nil] at hl
        exact hrep l hl
      · cases before with
        | nil => exact not_cutAtCr_nil hbuf hlen hc
        | cons c before =>
          cases hr
          have h := hc.notEnded
          rw [lines_cons, ended_append, hn] at h
          cases h
    | false =>
      have hrest := hrest hn
      refine ⟨fun l hl => ?_, fun before after hr hc => ?_⟩
      · rw [lines_cons, owed_append, hn] at hl
        simp only [Bool.false_eq_true, if_false, List.mem_append] at hl
        exact hl.elim (hrep l) (hrest.reportable l)
      · cases before with
        | nil => exact not_cutAtCr_nil hbuf hlen hc
        | cons c before =>
          cases hr
          exact hrest.notCut before after rfl ((cutAtCr_cons hn).mp hc)

theorem forall₂_append {α β : Type} {R : α → β → Prop} {as as' : List α} {bs bs' : List β} (h : List.Forall₂ R as bs) :
    List.Forall₂ R (as ++ as') (bs ++ bs') ↔ List.Forall₂ R as' bs' := by
  induction h with
  | nil => simp
  | cons hr _ ih => simp [hr, ih]

theorem served_iff (hbuf : LF ∉ buf) (hlen : buf.length ≤ kMaxLine) :
    Served lib ws n buf reads ↔ Tellable lib buf reads := by
  induction reads generalizing n buf with
  | nil =>
    refine iff_of_true ⟨?_, by simp [serve]⟩ ⟨?_, fun before after hr hcut => ?_⟩
    · simp [serve, splitLines_of_not_mem hbuf, owed]
    · simp [splitLines_of_not_mem hbuf, owed]
    · have hlf := hcut.lf
      rw [(List.append_eq_nil_iff.mp hr.symm).2] at hlf
      cases hlf
  | cons chunk reads ih =>
    rw [tellable_cons hbuf hlen]
    by_cases hall : ∀ l ∈ owed lib (splitLines LF (buf ++ chunk)).1, Reportable lib l
    · obtain ⟨hf, hnt, hnone⟩ := @serveLines_reportable lib n ws _ hall
      rw [and_iff_right hall]
      cases hn : ended lib (splitLines LF (buf ++ chunk)).1 with
      | true =>
        -- the service ends with these lines
        obtain ⟨ending, he⟩ : ∃ ending, (serveLines lib ws n (splitLines LF (buf ++ chunk)).1).2 = some ending :=
          Option.ne_none_iff_exists'.mp fun h => by simp [hnone.mp h] at hn
        have hs : serve lib ws n buf (chunk :: reads) = ((serveLines lib ws n (splitLines LF (buf ++ chunk)).1).1, ending) := by
          simp only [serve]
          rw [← Prod.mk.eta (p := serveLines lib ws n (splitLines LF (buf ++ chunk)).1), he]
        refine iff_of_true ⟨?_, fun what hw => hnt what ?_⟩ fun h => by cases h
        · rw [lines_cons, owed_append, hn, if_pos rfl, List.append_nil, hs]
          exact hf
        · rw [hs] at hw
          rw [he]
          exact congrArg some hw
      | false =>
        have he := hnone.mpr hn
        have howed : owed lib (splitLines LF (buf ++ (chunk :: reads).flatten)).1 =
            owed lib (splitLines LF (buf ++ chunk)).1 ++
              owed lib (splitLines LF ((splitLines LF (buf ++ chunk)).2 ++ reads.flatten)).1 := by
          rw [lines_cons, owed_append, hn]
          simp
        simp only [true_imp_iff]
        by_cases hlong : kMaxLine < (splitLines LF (buf ++ chunk)).2.length
        · -- the rest is over the cap
          have hs : serve lib ws n buf (chunk :: reads) =
              ((serveLines lib ws n (splitLines LF (buf ++ chunk)).1).1, .overlong) := by
            simp only [serve]
            rw [← Prod.mk.eta (p := serveLines lib ws n (splitLines LF (buf ++ chunk)).1), he]
            simp [hlong]
          rw [tellable_overlong hlong splitLines_rest]
          constructor
          · intro h
            have hl := h.replies.length_eq
            rw [howed, hs, List.length_append, hf.length_eq] at hl
            dsimp only at hl
            exact List.eq_nil_of_length_eq_zero (by omega)
          · intro h
            refine ⟨?_, fun what hw => by rw [hs] at hw; cases hw⟩
            rw [howed, h, List.append_nil, hs]
            exact hf
        · have hs : serve lib ws n buf (chunk :: reads) =
              ((serveLines lib ws n (splitLines LF (buf ++ chunk)).1).1 ++
                (serve lib ws (n + (splitLines LF (buf ++ chunk)).1.length) (splitLines LF (buf ++ chunk)).2 reads).1,
              (serve lib ws (n + (splitLines LF (buf ++ chunk)).1.length) (splitLines LF (buf ++ chunk)).2 reads).2) := by
            simp only [serve]
            rw [← Prod.mk.eta (p := serveLines lib ws n (splitLines LF (buf ++ chunk)).1), he]
            simp [hlong]
          rw [← @ih (n + (splitLines LF (buf ++ chunk)).1.length) _ splitLines_rest (by omega)]
          have hrep : List.Forall₂ (Answers lib) (owed lib (splitLines LF (buf ++ (chunk :: reads).flatten)).1)
              ((serve lib ws n buf (chunk :: reads)).1.filter (·.isReply)) ↔
                List.Forall₂ (Answers lib) (owed lib (splitLines LF ((splitLines LF (buf ++ chunk)).2 ++ reads.flatten)).1)
                  ((serve lib ws (n + (splitLines LF (buf ++ chunk)).1.length) (splitLines LF (buf ++ chunk)).2
                    reads).1.filter (·.isReply)) := by
            rw [howed, hs, List.filter_append]
            exact forall₂_append hf
          constructor
          · intro h
            exact ⟨hrep.mp h.replies, fun what hw => h.noThrow what (by rw [hs]; exact hw)⟩
          · intro h
            exact ⟨hrep.mpr h.replies, fun what hw => h.noThrow what (by rw [hs] at hw; exact hw)⟩
    · refine iff_of_false (fun h => ?_) fun h => hall h.1
      simp only [not_forall] at hall
      obtain ⟨l, hl, hr⟩ := hall
      obtain ⟨what, hw⟩ := @serveLines_throws lib l n ws _ hl hr
      refine h.noThrow what ?_
      simp only [serve]
      rw [← Prod.mk.eta (p := serveLines lib ws n (splitLines LF (buf ++ chunk)).1), hw]

/-- **Every line owed a reply has one, however the stream is cut into reads,**
exactly where what each of them is told is UTF-8, if it does not parse, and no
read ends between the CR and the LF of one of `kMaxLine` bytes. -/
theorem answered_iff {reads : List Bytes} : Answered lib ws reads ↔
    (∀ l ∈ owed lib (splitLines LF reads.flatten).1, Reportable lib l) ∧
      ∀ before after, reads = before ++ after → ¬ CutAtCr lib [] before after := by
  have h := @served_iff lib 0 ws [] reads (by simp) (by simp)
  constructor
  · intro ha
    have ht := h.mp ⟨ha.replies, ha.noThrow⟩
    exact ⟨ht.reportable, ht.notCut⟩
  · rintro ⟨hr, hc⟩
    have hs := h.mpr ⟨hr, hc⟩
    exact ⟨hs.replies, hs.noThrow⟩

/-- A line of one byte that no UTF-8 has: the parser quotes it. -/
def badByte : Bytes := [0xFF]

def quoting : Nlohmann where
  parse l := .error (utf8 ("[json.exception.parse_error.101] parse error at line 1, column 1: " ++
    "syntax error while parsing value - invalid literal; last read: '") ++ l ++ utf8 "'")
  dumpError _ := "[json.exception.type_error.316] invalid UTF-8 byte at index 158: 0xFF"

/-- Nothing runs. -/
def noStreams : World where
  opening := false
  addStream := .error []
  found := false
  released := false
  sameStream := false
  threshold := none
  configure := .error []
  snapshot := .error []

theorem bad_byte_throws : (serveFd quoting (fun _ => noStreams) [badByte ++ [LF]]).2 =
    .threw "[json.exception.type_error.316] invalid UTF-8 byte at index 158: 0xFF" ∧
      ¬ Answered quoting (fun _ => noStreams) [badByte ++ [LF]] := by
  have hthrew : (serveFd quoting (fun _ => noStreams) [badByte ++ [LF]]).2 =
    .threw "[json.exception.type_error.316] invalid UTF-8 byte at index 158: 0xFF" := by
    decide +kernel
  exact ⟨hthrew, fun h => h.noThrow _ hthrew⟩

end RetailVision.ControlSocket

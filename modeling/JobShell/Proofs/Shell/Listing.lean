import JobShell.Proofs.Files
import JobShell.Proofs.Shell.Refusal
import JobShell.Proofs.Shell.Unread
import JobShell.Proofs.Table.BoundedMap
import JobShell.Proofs.Table.Listing

/-!
# Asking for a listing

What comes of a line that asks for the jobs, on the stream of the shell or in a file.

* `AsksForListing text path?` says that a line asks for them.
* `Shell.listed` is the host once the listing was written, and what there is to say about it;
  `concludes_listing` says that this is what comes of such a line, and that the table is left alone.
* `streamed_kernel`, `appendAll_of_regular` and `appendAll_of_full` say that it makes no difference
  that the listing is written part by part; the lemmas after `concludes_listing` draw from them what
  is on the stream then, in a regular file, and on a device that is full.
* `listing_faithful` and `listing_to_failing_sink` put this together with what a listing tells.
-/

namespace JobShell

open Act
open Text (bytes)

namespace Shell

variable {σ : Type} [Host σ]

/-! ## 1. Part by part -/

/-- A host once its stream was offered some texts, up to the first that is not taken whole, and
whether all were taken. -/
def streamed (host : σ) : List String → σ × Bool
  | [] => (host, true)
  | part :: rest =>
    match Host.write host (bytes part) with
    | (host', true) => streamed host' rest
    | (host', false) => (host', false)

theorem on_writeAll (parts : List String) (s : Shell σ) :
    ∃ trace, (writeAll parts).on s =
      (.ok (streamed s.host parts).2, { s with host := (streamed s.host parts).1, trace }) := by
  induction parts generalizing s with
  | nil => exact ⟨s.trace, rfl⟩
  | cons part parts ih =>
    have hon : (writeAll (part :: parts)).on s =
        ((if (Host.write s.host (bytes part)).2 then writeAll parts else pure false).on
          { s with
            host := (Host.write s.host (bytes part)).1
            trace := .wrote (bytes part) :: s.trace }) := rfl
    rw [hon, streamed]
    cases Host.write s.host (bytes part) with
    | mk host all =>
      cases all with
      | true => exact ih _
      | false => exact ⟨_, rfl⟩

/-- To a kernel it makes no difference where what is written is divided. -/
theorem streamed_kernel (k : Kernel) (parts : List String) :
    streamed k parts = Host.write k (parts.flatMap bytes) := by
  induction parts generalizing k with
  | nil =>
    rw [List.flatMap_nil, Kernel.write_eq, List.append_nil]
    split
    · rfl
    · rfl
  | cons part parts ih =>
    rw [streamed, Kernel.write_eq, List.flatMap_cons, Kernel.write_eq]
    by_cases hfails : k.around.outputFails = true
    · rw [if_pos hfails, if_pos hfails]
      by_cases hnil : bytes part = []
      · rw [hnil, List.nil_append]
        exact (ih k).trans (by rw [Kernel.write_eq, if_pos hfails])
      · rw [List.isEmpty_eq_false_iff.2 hnil,
          List.isEmpty_eq_false_iff.2 (List.append_ne_nil_of_left_ne_nil hnil _)]
    · rw [if_neg hfails, if_neg hfails]
      dsimp only
      rw [ih, Kernel.write_eq, if_neg hfails, List.append_assoc]

omit [Host σ] in
/-- A regular file takes what there is room for, one text after the other. -/
theorem appendAll_of_regular {t : FileTree} {p : Place} {mode : Nat} {content : List UInt8}
    (hnode : t.node? p = some (.regular mode content)) (parts : List String) :
    let taken := t.taken p content.length (parts.flatMap bytes)
    ∃ t', appendAll t p parts = (t', taken.length == (parts.flatMap bytes).length) ∧
      t'.node? p = some (.regular mode (content ++ taken)) ∧
      (∀ q, q ≠ p → t'.node? q = t.node? q) ∧ t.Extends t' := by
  intro taken
  have hp : p ≠ [] := by
    rintro rfl
    cases hnode
  have hdir : t.isDirectory p = false := by
    rw [FileTree.isDirectory, hnode]
    rfl
  induction parts generalizing t content with
  | nil =>
    have hnothing : taken = [] := by
      show t.taken p content.length [] = []
      unfold FileTree.taken
      split
      · exact List.take_nil
      · rfl
    rw [hnothing, List.append_nil]
    exact ⟨t, rfl, hnode, fun _ _ => rfl, .refl t⟩
  | cons part parts ih =>
    let first := t.taken p content.length (bytes part)
    let t₁ := t.setNode p (.regular mode (content ++ first))
    have happend : t.append p (bytes part) = (t₁, first.length == (bytes part).length) := by
      rw [FileTree.append, hnode]
    have hfirst := FileTree.node?_setNode t hp (.regular mode (content ++ first))
    have hnode₁ : t₁.node? p = some (.regular mode (content ++ first)) := by
      rw [hfirst, if_pos rfl]
    have hext₁ : t.Extends t₁ := FileTree.extends_setNode hp hdir _
    have htaken : taken = if first.length = (bytes part).length then
        bytes part ++ t.taken p (content.length + (bytes part).length) (parts.flatMap bytes)
        else first := FileTree.taken_append _ _
    have hshift (m n : Nat) :
        ((bytes part).length + m == (bytes part).length + n) = (m == n) := by
      rw [Bool.eq_iff_iff, beq_iff_eq, beq_iff_eq]
      omega
    rw [appendAll, happend, List.flatMap_cons, List.length_append]
    by_cases hwhole : first.length = (bytes part).length
    · have hall : first = bytes part := FileTree.taken_eq_of_length hwhole
      have hdir₁ : t₁.isDirectory p = false := by
        rw [FileTree.isDirectory, hnode₁]
        rfl
      obtain ⟨t', happends, hlast, hother, hext⟩ := ih hnode₁ hdir₁
      rw [hwhole, beq_self_eq_true]
      rw [if_pos hwhole] at htaken
      rw [hall, List.length_append, FileTree.taken_setNode] at happends hlast
      refine ⟨t', ?_, ?_, fun q hq => ?_, hext₁.trans hext⟩
      · rw [htaken, List.length_append, hshift]
        exact happends
      · rw [htaken, hlast, List.append_assoc]
      · rw [hother q hq, hfirst, if_neg hq]
    · rw [if_neg hwhole] at htaken
      have hless : first.length < (bytes part).length :=
        lt_of_le_of_ne (FileTree.length_taken_le ..) hwhole
      rw [htaken, beq_eq_false_iff_ne.2 hwhole]
      refine ⟨t₁, ?_, hnode₁, fun q hq => by rw [hfirst, if_neg hq], hext₁⟩
      rw [beq_eq_false_iff_ne.2 (by omega)]

omit [Host σ] in
/-- A device that is full takes nothing. -/
theorem appendAll_of_full {t : FileTree} {p : Place} (hnode : t.node? p = some (.device .full))
    (parts : List String) : appendAll t p parts = (t, (parts.flatMap bytes).isEmpty) := by
  induction parts with
  | nil => rfl
  | cons part parts ih =>
    have happend : t.append p (bytes part) = (t, (bytes part).isEmpty) := by
      rw [FileTree.append, hnode]
    rw [appendAll, happend, List.flatMap_cons]
    by_cases hnil : bytes part = []
    · rw [hnil]
      exact ih
    · rw [List.isEmpty_eq_false_iff.2 hnil,
        List.isEmpty_eq_false_iff.2 (List.append_ne_nil_of_left_ne_nil hnil _)]

/-! ## 2. A line that asks for the jobs -/

/-- A line asks for the jobs, in the file of a path or on the stream. -/
def AsksForListing (text : String) (path? : Option String) : Prop :=
  ∃ c, Command.ofLine text = .ok (some c) ∧ c.program? = some Builtin.jobs.name ∧ c.outfile = path?

/-- The host once the listing was written, and what there is to say about it. -/
def listed (s : Shell σ) : Option String → σ × Option String
  | none =>
    let (host, all) := streamed s.host s.table.listingParts
    (host, if all then none else some listingFault)
  | some path =>
    match (Host.files s.host).openOutput path with
    | .error r => (s.host, some (Obstacle.text ⟨path, r⟩))
    | .ok (files, place) =>
      let (files, all) := appendAll files place s.table.listingParts
      (Host.withFiles s.host files, if all then none else some listingFault)

/-- The host once something was said, if there was anything to say. -/
def told : σ × Option String → σ
  | (host, none) => host
  | (host, some message) => (Host.write host (line message)).1

variable {s : Shell σ} {text : String} {path? : Option String}

/-- What is said when not all was taken. -/
theorem on_report (all : Bool) (s : Shell σ) :
    ∃ trace, (unless all do say listingFault : Act σ Unit).on s = (.ok (), { s with
      host := told (s.host, if all then none else some listingFault), trace }) := by
  cases all with
  | true => exact ⟨s.trace, rfl⟩
  | false => exact ⟨_, rfl⟩

/-- **The listing is written, and nothing else is different** but what the shell remembers of it. -/
theorem concludes_listing (h : AsksForListing text path?) :
    ∃ s', Concludes text s s' ∧
      s' = { s with host := told (s.listed path?), trace := s'.trace } := by
  obtain ⟨c, hline, hname, hpath⟩ := h
  have hact : (evaluate text : Act σ Unit) = _ := evaluate_of_jobs hline hname
  rw [listJobs] at hact
  cases path? with
  | none =>
    let s₀ : Shell σ := { inside s with
      trace := .listed s.table :: .used s.mask.withAll :: s.trace }
    obtain ⟨trace, hwrite⟩ := on_writeAll s.table.listingParts s₀
    obtain ⟨trace', hreport⟩ := on_report (streamed s.host s.table.listingParts).2
      { inside s with host := (streamed s.host s.table.listingParts).1, trace }
    refine ⟨{ s with host := told (s.listed none), trace := trace' },
      concludes_locked hact rfl ?_, rfl⟩
    simp only [hpath]
    rw [on_jobs_bind, on_bind]
    show (writeAll s.table.listingParts >>= fun all => unless all do say listingFault).on s₀ = _
    rw [on_bind, hwrite]
    exact hreport
  | some path =>
    cases hopen : (Host.files s.host).openOutput path with
    | error r =>
      refine ⟨_, concludes_unopened hline hname hpath hopen, ?_⟩
      rw [listed, hopen]
      rfl
    | ok opened =>
      obtain ⟨files, place⟩ := opened
      let files' : FileTree := (appendAll files place s.table.listingParts).1
      obtain ⟨trace, hreport⟩ := on_report (appendAll files place s.table.listingParts).2
        { inside s with
          host := Host.withFiles s.host files'
          trace := .listed s.table :: .used s.mask.withAll :: s.trace }
      refine ⟨{ s with host := told (s.listed (some path)), trace },
        concludes_locked hact rfl ?_, rfl⟩
      simp only [hpath]
      rw [on_bind, on_get]
      simp only [show (Host.files (inside s).host).openOutput path = .ok (files, place) from hopen]
      rw [on_jobs_bind, listed, hopen]
      exact hreport

/-! ## 3. Where the listing goes -/

/-- The files make no difference to what is said. -/
theorem told_withFiles (k : Kernel) (files : FileTree) (message? : Option String) :
    told (Host.withFiles k files, message?) = Host.withFiles (told (k, message?)) files := by
  cases message? with
  | none => rfl
  | some message =>
    show (Host.write (Host.withFiles k files) (line message)).1 =
      Host.withFiles (Host.write k (line message)).1 files
    rw [Kernel.write_eq, Kernel.write_eq]
    have hsame : (Host.withFiles k files).around.outputFails = k.around.outputFails := rfl
    rw [hsame]
    split
    · rfl
    · rfl

/-- **In a regular file** stands as much of the listing as there is room for and nothing else, and a
message says so if it is not all. -/
theorem concludes_listing_in_file {s : Session} {path : String} {files : FileTree} {place : Place}
    (h : AsksForListing text (some path))
    (hopen : s.host.around.files.openOutput path = .ok (files, place))
    (hregular : ∀ d, s.host.around.files.node? place ≠ some (.device d)) :
    let held := s.host.around.files.taken place 0 s.table.listing
    ∃ s', Concludes text s s' ∧ s'.table = s.table ∧
      (∃ mode, s'.host.around.files.lookup path = .ok (.regular mode held)) ∧
      (∀ q, q ≠ place → s'.host.around.files.node? q = s.host.around.files.node? q) ∧
      s'.host.around.output = (told (s.host, if held.length = s.table.listing.length then none
        else some listingFault)).around.output := by
  intro held
  obtain ⟨mode, hempty, hother⟩ : ∃ mode, files.node? place = some (.regular mode []) ∧
      ∀ q, q ≠ place → files.node? q = s.host.around.files.node? q := by
    cases FileTree.opened_of_openOutput hopen with
    | @file _ mode hmode =>
      have hnode := FileTree.node?_setNode s.host.around.files
        (FileTree.ne_root_of_openedMode? hmode) (.regular mode [])
      exact ⟨mode, (hnode place).trans (if_pos rfl), fun q hq => (hnode q).trans (if_neg hq)⟩
    | device hnode => exact (hregular _ hnode).elim
  have hopened : s.host.around.files.Extends files :=
    (FileTree.opened_of_openOutput hopen).extends
  have hheld : files.taken place 0 s.table.listing = held := by
    rw [FileTree.taken, hopened.rules]
    rfl
  obtain ⟨files', hall, hnode, hrest, hext⟩ :=
    appendAll_of_regular hempty s.table.listingParts
  rw [show s.table.listingParts.flatMap bytes = s.table.listing from rfl, List.length_nil, hheld]
    at hall hnode
  -- the file was found when it was opened, and writing to it has not moved it
  have hplace : files'.place path = .ok place := hext.place (FileTree.place_of_openOutput hopen)
  let message? := if held.length = s.table.listing.length then none else some listingFault
  have hlisted : told (s.listed (some path)) = Host.withFiles (told (s.host, message?)) files' := by
    have hopen' : (Host.files s.host).openOutput path = .ok (files, place) := hopen
    rw [← told_withFiles, listed, hopen']
    dsimp only
    rw [hall]
    simp only [beq_iff_eq]
    rfl
  obtain ⟨s', hconcludes, hs'⟩ := concludes_listing (s := s) h
  rw [hlisted] at hs'
  have hfiles : s'.host.around.files = files' := by
    rw [hs']
    rfl
  refine ⟨s', hconcludes, by rw [hs'], ⟨mode, ?_⟩, fun q hq => ?_, by rw [hs']; rfl⟩
  · rw [hfiles, FileTree.lookup, hplace]
    dsimp only
    rw [hnode]
    rfl
  · rw [hfiles, hrest q hq, hother q hq]

/-- **On the stream** the listing follows what was written before. -/
theorem concludes_listing_on_stream {s : Session} (h : AsksForListing text none)
    (htakes : s.host.around.outputFails = false) :
    ∃ s', Concludes text s s' ∧ s'.table = s.table ∧
      s'.host.around = { s.host.around with
        output := s.host.around.output ++ s.table.listing } := by
  obtain ⟨s', hconcludes, hs'⟩ := concludes_listing (s := s) h
  have hfails : ¬ s.host.around.outputFails = true := by
    rw [htakes]
    exact Bool.false_ne_true
  rw [listed, streamed_kernel, Kernel.write_eq, if_neg hfails] at hs'
  exact ⟨s', hconcludes, by rw [hs'], by rw [hs']; rfl⟩

/-- **A device that is full** holds nothing of the listing, and that is said if there are jobs. -/
theorem concludes_listing_on_full {s : Session} {path : String} {files : FileTree} {place : Place}
    (h : AsksForListing text (some path))
    (hopen : s.host.around.files.openOutput path = .ok (files, place))
    (hfull : s.host.around.files.node? place = some (.device .full)) :
    ∃ s', Concludes text s s' ∧ s'.table = s.table ∧
      s'.host = if s.table.jobs = [] then s.host else (Host.write s.host (line listingFault)).1 := by
  have hfiles : files = s.host.around.files := by
    cases FileTree.opened_of_openOutput hopen with
    | file hmode =>
      rw [hfull] at hmode
      cases hmode
    | device hnode => rfl
  subst hfiles
  have hopen' : (Host.files s.host).openOutput path = .ok (s.host.around.files, place) := hopen
  have hall : appendAll s.host.around.files place s.table.listingParts =
      (s.host.around.files, s.table.listing.isEmpty) := appendAll_of_full hfull _
  obtain ⟨s', hconcludes, hs'⟩ := concludes_listing (s := s) h
  rw [listed, hopen'] at hs'
  dsimp only at hs'
  rw [hall] at hs'
  refine ⟨s', hconcludes, by rw [hs'], ?_⟩
  by_cases hjobs : s.table.jobs = []
  · rw [JobTable.listing_eq_nil_iff.2 hjobs] at hs'
    rw [if_pos hjobs, hs']
    rfl
  · rw [List.isEmpty_eq_false_iff.2 (mt JobTable.listing_eq_nil_iff.1 hjobs)] at hs'
    rw [if_neg hjobs, hs']
    rfl

/-! ## 4. What a listing is worth -/

/-- **A listing is faithful.** Whatever the table came from, if no command line in it goes on to a
new line, then the jobs are read back from what is listed, in the order of their numbers, and no
table with other jobs is listed so. And a line that asks for the jobs in a regular file that there
is room in leaves there what would have followed on the stream, and nothing else, and leaves the
table alone. -/
theorem listing_faithful :
    (∀ ops, let t := JobTable.empty.run ops
      t.OneLined → t.list {} = ({ taken := t.listing }, true) ∧
        JobTable.ofListing? t.listing = some t.jobs ∧ t.jobs.Pairwise (·.id < ·.id) ∧
        ∀ ops', let t' := JobTable.empty.run ops'
          t'.OneLined → t'.listing = t.listing → t'.jobs = t.jobs) ∧
      (∀ (s : Session) (text path : String) (files : FileTree) (place : Place),
        AsksForListing text (some path) →
        s.host.around.files.openOutput path = .ok (files, place) →
        (∀ d, s.host.around.files.node? place ≠ some (.device d)) →
        (∀ room, s.host.around.files.rules.room? place = some room →
          s.table.listing.length ≤ room) →
        ∃ s', Concludes text s s' ∧ s'.table = s.table ∧
          (∃ mode, s'.host.around.files.lookup path = .ok (.regular mode s.table.listing)) ∧
          (∀ q, q ≠ place → s'.host.around.files.node? q = s.host.around.files.node? q) ∧
          s'.host.around.output = s.host.around.output) ∧
      (∀ (s : Session) (text : String), AsksForListing text none →
        s.host.around.outputFails = false →
        ∃ s', Concludes text s s' ∧ s'.table = s.table ∧
          s'.host.around = { s.host.around with
            output := s.host.around.output ++ s.table.listing }) := by
  refine ⟨fun ops => ?_, fun s text path files place hline hopen hregular hroom => ?_,
    fun s text => concludes_listing_on_stream⟩
  · intro t ht
    refine ⟨JobTable.list_eq t {}, JobTable.ofListing?_listing ht,
      (JobTable.wellFormed_empty.run ops).sorted_jobs, fun ops' => ?_⟩
    intro t' ht' heq
    exact JobTable.jobs_eq_of_listing_eq ht' ht heq
  · obtain ⟨s', hconcludes, htable, hnode, hother, hout⟩ :=
      concludes_listing_in_file hline hopen hregular
    have hheld : s.host.around.files.taken place 0 s.table.listing = s.table.listing :=
      FileTree.taken_of_room fun room h => (Nat.zero_add _).symm ▸ hroom room h
    rw [hheld] at hnode hout
    rw [if_pos rfl] at hout
    exact ⟨s', hconcludes, htable, hnode, hother, hout⟩

/-- A session with a job whose command line looks like a listing, and a file that holds something
else. -/
def lookalike : Session :=
  { Session.start { files :=
      { nodes := [(["out"], .regular 0o600 (bytes "[9] (9) Stopped"))], workDir := [] } } with
    table := JobTable.run .empty
      [.add 7 .background "a &", .add (-8) .background "[1] (7) Stopped a", .remove 1] }

/-- A command line that looks like a listing is not taken for one. -/
theorem listing_faithful_lookalike :
    JobTable.ofListing? lookalike.table.listing =
        some [⟨2, -8, .background, StoredLine.ofString "[1] (7) Stopped a"⟩] ∧
      ∃ s', Concludes "jobs >out" lookalike s' ∧ s'.table = lookalike.table ∧
        ∃ mode, s'.host.around.files.lookup "out" =
          .ok (.regular mode (bytes "[2] (-8) Running [1] (7) Stopped a\n")) := by
  obtain ⟨hread, hfile, -⟩ := listing_faithful
  have hline : AsksForListing "jobs >out" (some "out") :=
    ⟨⟨["jobs"], none, some "out", false⟩, by decide +kernel, rfl, rfl⟩
  have hlisting : lookalike.table.listing = bytes "[2] (-8) Running [1] (7) Stopped a\n" := by
    decide +kernel
  constructor
  · have hjobs : lookalike.table.jobs =
        [⟨2, -8, .background, StoredLine.ofString "[1] (7) Stopped a"⟩] := by
      decide +kernel
    rw [← hjobs]
    exact (hread _ (by decide +kernel)).2.1
  · obtain ⟨s', hconcludes, htable, hnode, -, -⟩ :=
      hfile lookalike "jobs >out" "out" _ _ hline rfl (fun d h => by cases h)
        (fun room h => by cases h)
    exact ⟨s', hconcludes, htable, hlisting ▸ hnode⟩

/-- **A listing that is not taken whole is cut, and reported.** A sink that takes a number of bytes
and then refuses has the first bytes of the listing then, as many as that, in whatever parts they
are offered and taken; all of them are there and the flush has worked exactly if that is the answer.
And whatever becomes of the listing that a line asks for, it leaves the table alone; where it goes
to a file that can hold no more than that number of bytes, the file holds the first ones, and where
it goes to a device that is full, that holds none; a message says so unless it was all. -/
theorem listing_to_failing_sink (t : JobTable) (before : List UInt8) (limit : Nat)
    (flushFails : Bool) :
    let sink : Sink := ⟨before, some limit, flushFails⟩
    (∀ parts s' ok, parts.flatten = t.listing →
        (sink.Receives parts s' ok ↔ t.list sink = (s', ok))) ∧
      (t.list sink).1.taken = before ++ t.listing.take limit ∧
      ((t.list sink).2 = true ↔ t.listing.length ≤ limit ∧ flushFails = false) ∧
      (∀ {σ : Type} [Host σ] (s : Shell σ) (text : String) (path? : Option String),
        s.table = t → AsksForListing text path? →
        ∃ s', Concludes text s s' ∧ s'.table = t ∧ s'.host = told (s.listed path?)) ∧
      (∀ (s : Session) (text path : String) (files : FileTree) (place : Place),
        s.table = t → AsksForListing text (some path) →
        s.host.around.files.openOutput path = .ok (files, place) →
        (∀ d, s.host.around.files.node? place ≠ some (.device d)) →
        s.host.around.files.rules.room? place = some limit →
        ∃ s', Concludes text s s' ∧ s'.table = t ∧
          (∃ mode, s'.host.around.files.lookup path =
            .ok (.regular mode (t.listing.take limit))) ∧
          s'.host.around.output = (told (s.host, if t.listing.length ≤ limit then none
            else some listingFault)).around.output) ∧
      ∀ (s : Session) (text path : String) (files : FileTree) (place : Place),
        s.table = t → AsksForListing text (some path) →
        s.host.around.files.openOutput path = .ok (files, place) →
        s.host.around.files.node? place = some (.device .full) →
        ∃ s', Concludes text s s' ∧ s'.table = t ∧
          s'.host = if t.jobs = [] then s.host else (Host.write s.host (line listingFault)).1 := by
  intro sink
  refine ⟨fun parts s' ok => JobTable.receives_iff, t.taken_list before limit flushFails,
    t.list_ok_iff before limit flushFails, fun s text path? htable hline => ?_,
    fun s text path files place htable hline hopen hregular hroom => ?_,
    fun s text path files place htable hline hopen hfull => ?_⟩
  · obtain ⟨s', hconcludes, hs'⟩ := concludes_listing (s := s) hline
    exact ⟨s', hconcludes, by rw [hs', ← htable], by rw [hs']⟩
  · obtain ⟨s', hconcludes, htable', hnode, -, hout⟩ :=
      concludes_listing_in_file hline hopen hregular
    have hheld : s.host.around.files.taken place 0 s.table.listing = t.listing.take limit := by
      rw [FileTree.taken, hroom, ← htable]
      rfl
    have hwhole : (t.listing.take limit).length = t.listing.length ↔ t.listing.length ≤ limit := by
      rw [List.length_take]
      omega
    rw [hheld] at hnode hout
    rw [htable] at hout
    simp only [hwhole] at hout
    exact ⟨s', hconcludes, htable'.trans htable, hnode, hout⟩
  · rw [← htable]
    exact concludes_listing_on_full hline hopen hfull

/-- The same session with a device that is full. -/
def lookalikeOnFull : Session :=
  { lookalike with host :=
      { around := { files := { nodes := [(["full"], .device .full)], workDir := [] } } } }

/-- A listing that is cut inside a number, and one of which nothing is taken. -/
theorem listing_to_failing_sink_cut :
    (lookalike.table.list { room := some 7 }).1.taken = bytes "[2] (-8" ∧
      (lookalike.table.list { room := some 7 }).2 = false ∧
      ∃ s', Concludes "jobs >full" lookalikeOnFull s' ∧ s'.table = lookalike.table ∧
        s'.host.around.output = line listingFault := by
  obtain ⟨-, htaken, hok, -, -, hfull⟩ := listing_to_failing_sink lookalike.table [] 7 false
  have hline : AsksForListing "jobs >full" (some "full") :=
    ⟨⟨["jobs"], none, some "full", false⟩, by decide +kernel, rfl, rfl⟩
  refine ⟨htaken.trans (by decide +kernel), Bool.eq_false_iff.2 fun h => ?_, ?_⟩
  · exact absurd (hok.1 h).1 (by decide +kernel)
  · obtain ⟨s', hconcludes, htable, hhost⟩ :=
      hfull lookalikeOnFull "jobs >full" "full" _ _ rfl hline rfl rfl
    refine ⟨s', hconcludes, htable, ?_⟩
    rw [hhost, if_neg (by decide +kernel)]
    rfl

end Shell

end JobShell

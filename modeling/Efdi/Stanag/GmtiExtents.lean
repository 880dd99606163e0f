import Efdi.Stanag.Gmti
import Mathlib.Algebra.GroupWithZero.Nat

/-!
# Where target reports are decoded

`_4607_decode_dwell` reads on from field to field and never looks at the end of its segment.  The
segments of a packet do not depend on what is in them, so the loop is a fold over them
(`packetLoop_eq`), and the reports of a dwell are a row of records of one size behind its fields
(`decodeDwell_spec`).  A report is decoded from the bytes of its record alone
(`readFields_congr`), and the records lie inside their segment exactly when the row does
(`targets_inside_iff`).
-/

namespace Efdi.Stanag.Gmti

open List
open Asterix (FloatMath)
open Tracks (Track)

/-! ## Fields -/

/-- The bytes that fields take. -/
def sizes (fields : List Field) : Nat := (fields.map Field.size).sum

variable {fields : List Field} {out : Track} {pos last : Nat} {seg : Segment} {target : Target}

theorem readFields_cons {data : List UInt8} {field : Field} {result : Track × Nat}
    (h : readFields data (field :: fields) out pos = .ok result) :
    ∃ raw, readFields data fields (setAll (field.write raw) out) (pos + field.size) = .ok result := by
  rw [readFields] at h
  cases hread : field.read data pos with
  | error e =>
    rw [hread] at h
    cases h
  | ok raw =>
    rw [hread] at h
    exact ⟨raw, h⟩

theorem readFields_pos {data : List UInt8} {out' : Track} {pos' : Nat}
    (h : readFields data fields out pos = .ok (out', pos')) : pos' = pos + sizes fields := by
  induction fields generalizing out pos with
  | nil =>
    cases h
    rfl
  | cons field fields ih =>
    obtain ⟨raw, h⟩ := readFields_cons h
    rw [ih h, sizes, sizes, map_cons, sum_cons]
    omega

theorem slice_congr {data data' : List UInt8} {start stop : Nat}
    (h : ∀ i, start ≤ i → i < stop → data'[i]? = data[i]?) :
    slice data' start stop = slice data start stop := by
  refine ext_getElem? fun i => ?_
  rw [slice, slice, getElem?_drop, getElem?_drop]
  by_cases hi : start + i < stop
  · rw [getElem?_take_of_lt hi, getElem?_take_of_lt hi]
    exact h _ (Nat.le_add_right _ _) hi
  · rw [getElem?_take_eq_none (by omega), getElem?_take_eq_none (by omega)]

/-- Fields are decoded from the bytes that they take. -/
theorem readFields_congr {data data' : List UInt8}
    (h : ∀ i, pos ≤ i → i < pos + sizes fields → data'[i]? = data[i]?) :
    readFields data' fields out pos = readFields data fields out pos := by
  induction fields generalizing out pos with
  | nil => rfl
  | cons field fields ih =>
    rw [sizes, map_cons, sum_cons] at h
    have hraw : field.read data' pos = field.read data pos := by
      rw [Field.read, Field.read, slice_congr fun i hi hlt => h i hi (by omega)]
    rw [readFields, readFields, hraw]
    cases field.read data pos with
    | error e => rfl
    | ok raw =>
      refine ih fun i hi hlt => h i (by omega) ?_
      rw [sizes] at hlt
      omega

/-! ## Dwells -/

variable (F : FloatMath) (data : List UInt8)

/-- The existence mask of a dwell. -/
def dwellMask (body : Nat) : Nat :=
  (numberAt data body (body + 4) <<< 32) ||| numberAt data (body + 4) (body + 8)

/-- The target report count of a dwell. -/
def targetCount (body : Nat) : Nat := numberAt data (body + 13) (body + 15)

/-- The bytes of a target report of a dwell. -/
def reportSize (body : Nat) : Nat := sizes (present (dwellMask data body) (targetReportFields F))

/-- Where the target reports of a dwell begin, behind the fields that its mask has. -/
def reportsStart (body : Nat) : Nat :=
  body + 15 + sizes (present (dwellMask data body) (dwellFields F))

/-- Where the target reports of a dwell end, by its mask and its count. -/
def reportsStop (body : Nat) : Nat :=
  reportsStart F data body + targetCount data body * reportSize F data body

variable {F data}

theorem unpack_eq {size n : Nat} (h : unpack size data pos = .ok n) :
    n = numberAt data pos (pos + size) := by
  rw [unpack] at h
  split at h
  · cases h
  · exact (Except.ok.inj h).symm

theorem decodeTargetReports_spec {mask count : Nat} {targets : List TargetReport}
    (h : decodeTargetReports F data mask count pos = .ok (targets, last)) :
    (∀ target ∈ targets,
      decodeTargetReport F data target.start mask = .ok (target.report, target.stop) ∧
        pos ≤ target.start ∧ target.stop ≤ last) ∧
      last = pos + count * sizes (present mask (targetReportFields F)) ∧
        (0 < count → ∃ target ∈ targets, target.stop = last) := by
  induction count generalizing pos targets with
  | zero =>
    cases h
    exact ⟨fun target htarget => absurd htarget not_mem_nil, by omega, by omega⟩
  | succ count ih =>
    rw [decodeTargetReports] at h
    obtain ⟨⟨report, next⟩, hreport, h⟩ := Checks.bind_eq_ok.mp h
    obtain ⟨⟨rest, last'⟩, hrest, h⟩ := Checks.bind_eq_ok.mp h
    cases h
    obtain ⟨hall, hlast, hex⟩ := ih hrest
    have hnext := readFields_pos hreport
    refine ⟨?_, ?_, fun _ => ?_⟩
    · intro target htarget
      cases htarget with
      | head => exact ⟨hreport, Nat.le_refl _, by dsimp only; omega⟩
      | tail _ htarget =>
        obtain ⟨hdecode, hstart, hstop⟩ := hall target htarget
        exact ⟨hdecode, by omega, hstop⟩
    · rw [hlast, hnext, Nat.succ_mul]
      omega
    · cases count with
      | zero => exact ⟨_, .head _, by dsimp only; omega⟩
      | succ count =>
        obtain ⟨target, htarget, hstop⟩ := hex (Nat.succ_pos _)
        exact ⟨target, .tail _ htarget, hstop⟩

/-- The target reports of a dwell follow its fields, one behind the other. -/
theorem decodeDwell_spec {body : Nat} {dwell : Track} {targets : List TargetReport}
    (h : decodeDwell F data body = .ok (dwell, targets, last)) :
    (∀ target ∈ targets, decodeTargetReport F data target.start (dwellMask data body) =
        .ok (target.report, target.stop) ∧
      reportsStart F data body ≤ target.start ∧ target.stop ≤ reportsStop F data body) ∧
      (0 < targetCount data body → ∃ target ∈ targets, target.stop = reportsStop F data body) := by
  rw [decodeDwell] at h
  obtain ⟨high, hhigh, h⟩ := Checks.bind_eq_ok.mp h
  obtain ⟨low, hlow, h⟩ := Checks.bind_eq_ok.mp h
  obtain ⟨⟨head, pos⟩, hhead, h⟩ := Checks.bind_eq_ok.mp h
  obtain ⟨count, hcount, h⟩ := Checks.bind_eq_ok.mp h
  obtain ⟨⟨fields, pos'⟩, hfields, h⟩ := Checks.bind_eq_ok.mp h
  obtain ⟨⟨reports, pos''⟩, hreports, h⟩ := Checks.bind_eq_ok.mp h
  cases h
  have hpos : pos = body + 13 := readFields_pos hhead
  have hmask : high <<< 32 ||| low = dwellMask data body := by
    rw [dwellMask, unpack_eq hhigh, unpack_eq hlow]
  have hcountAt : count = targetCount data body := by
    rw [unpack_eq hcount, hpos, targetCount]
  rw [hmask] at hfields hreports
  have hstart : pos' = reportsStart F data body := by
    rw [readFields_pos hfields, hpos, reportsStart]
  rw [hstart, hcountAt] at hreports
  obtain ⟨hall, hlast, hex⟩ := decodeTargetReports_spec hreports
  have hstop : last = reportsStop F data body := hlast
  rw [hstop] at hall hex
  exact ⟨hall, hex⟩

/-! ## Segments -/

/-- A segment: its type, where it begins and where it ends by its declared size. -/
structure Segment where
  type : Nat
  start : Nat
  stop : Nat

/-- The segments that the loop comes to from a position on. -/
def segments (data : List UInt8) (size pos : Nat) : List Segment :=
  if pos + 5 ≤ size then
    let segSize := numberAt data (pos + 1) (pos + 5)
    if segSize < 5 then []
    else ⟨numberAt data pos (pos + 1), pos, pos + segSize⟩ :: segments data size (pos + segSize)
  else []
termination_by size - pos

/-- The segments of a packet with a header. -/
def packetSegments (data : List UInt8) (header : Header) : List Segment :=
  segments data (min header.packetSize data.length) 32

theorem packetLoop_eq (size pos : Nat) (tracks : List Target) :
    packetLoop F data size pos tracks = (segments data size pos).foldlM
      (fun tracks seg => decodeSegment F data seg.type seg.start seg.stop tracks) tracks := by
  fun_induction segments data size pos generalizing tracks with
  | case1 pos hpos segSize hsmall =>
    rw [packetLoop, if_pos hpos]
    exact if_pos hsmall
  | case2 pos hpos segSize hlarge ih =>
    rw [packetLoop, if_pos hpos, foldlM_cons]
    dsimp only
    rw [if_neg hlarge]
    cases decodeSegment F data (numberAt data pos (pos + 1)) pos (pos + segSize) tracks with
    | error e => rfl
    | ok tracks => exact ih tracks
  | case3 pos hpos =>
    rw [packetLoop, if_neg hpos]
    rfl

theorem decodePacket_eq {header : Header} {targets : List Target}
    (h : decodePacket F data = .ok (some (header, targets))) :
    decodeHeader data = some header ∧ (packetSegments data header).foldlM
      (fun tracks seg => decodeSegment F data seg.type seg.start seg.stop tracks) [] =
        .ok targets := by
  rw [decodePacket] at h
  cases hheader : decodeHeader data with
  | none =>
    rw [hheader] at h
    cases h
  | some head =>
    rw [hheader] at h
    dsimp only at h
    rw [packetLoop_eq] at h
    cases hfold : (segments data (min head.packetSize data.length) 32).foldlM
        (fun tracks seg => decodeSegment F data seg.type seg.start seg.stop tracks) [] with
    | error e =>
      rw [hfold] at h
      cases h
    | ok tracks =>
      rw [hfold] at h
      cases h
      exact ⟨rfl, hfold⟩

theorem decodePacket_of_fold {header : Header} {targets : List Target}
    (hheader : decodeHeader data = some header)
    (hfold : (packetSegments data header).foldlM
      (fun tracks seg => decodeSegment F data seg.type seg.start seg.stop tracks) [] =
        .ok targets) : decodePacket F data = .ok (some (header, targets)) := by
  rw [packetSegments, ← packetLoop_eq] at hfold
  rw [decodePacket, hheader]
  dsimp only
  rw [hfold]
  rfl

theorem packetSize_of_header {header : Header} (h : decodeHeader data = some header) :
    header.packetSize = numberAt data 2 6 := by
  rw [decodeHeader] at h
  split at h
  · cases h
  · cases h
    rfl

theorem exists_header (h : 32 ≤ data.length) : ∃ header, decodeHeader data = some header :=
  ⟨_, if_neg (Nat.not_lt.mpr h)⟩

theorem segments_cons {size n : Nat} (hpos : pos + 5 ≤ size)
    (hsize : numberAt data (pos + 1) (pos + 5) = n + 5) :
    segments data size pos =
      ⟨numberAt data pos (pos + 1), pos, pos + (n + 5)⟩ :: segments data size (pos + (n + 5)) := by
  rw [segments, if_pos hpos]
  dsimp only
  rw [hsize, if_neg (by omega)]

theorem appendTargets_eq (dwell : Track) (segStart segEnd position : Nat)
    (reports : List TargetReport) (tracks : List Target) :
    appendTargets dwell segStart segEnd position reports tracks =
      tracks ++ reports.mapIdx fun i report =>
        ⟨dwell, report, position + i, tracks.length + i, segStart, segEnd⟩ := by
  induction reports generalizing position tracks with
  | nil => exact (append_nil _).symm
  | cons report reports ih =>
    rw [appendTargets, ih, mapIdx_cons, append_assoc, length_append,
      length_singleton]
    simp only [Nat.add_zero, Nat.add_assoc, Nat.add_comm 1, singleton_append]

theorem decodeSegment_ok {tracks result : List Target}
    (h : decodeSegment F data seg.type seg.start seg.stop tracks = .ok result) :
    (seg.type = 2 ∧ ∃ dwell reports last,
      decodeDwell F data (seg.start + 5) = .ok (dwell, reports, last) ∧
        result = appendTargets dwell seg.start seg.stop 0 reports tracks) ∨
      (seg.type ≠ 2 ∧ result = tracks) := by
  have hmap : ∀ {α : Type} {x : Except GmtiError α},
      (x.map fun _ => tracks) = .ok result → result = tracks := by
    intro α x hx
    cases x with
    | error e => cases hx
    | ok a => exact (Except.ok.inj hx).symm
  rw [decodeSegment] at h
  split at h
  next hone => exact .inr ⟨by omega, hmap h⟩
  next =>
    split at h
    next hfive => exact .inr ⟨by omega, hmap h⟩
    next =>
      split at h
      next hthirteen => exact .inr ⟨by omega, hmap h⟩
      next =>
        split at h
        next htwo =>
          cases hdwell : decodeDwell F data (seg.start + 5) with
          | error e =>
            rw [hdwell] at h
            cases h
          | ok parts =>
            obtain ⟨dwell, reports, last⟩ := parts
            rw [hdwell] at h
            exact .inl ⟨htwo, dwell, reports, last, rfl, (Except.ok.inj h).symm⟩
        next htwo => exact .inr ⟨htwo, (Except.ok.inj h).symm⟩

/-- A target comes from a report of a dwell segment. -/
def Target.From (F : FloatMath) (data : List UInt8) (seg : Segment) (target : Target) : Prop :=
  seg.type = 2 ∧ target.segStart = seg.start ∧ target.segEnd = seg.stop ∧
    ∃ reports last, decodeDwell F data (seg.start + 5) = .ok (target.dwell, reports, last) ∧
      reports[target.position]? = some target.report

theorem mem_appendTargets {dwell : Track} {reports : List TargetReport} (htype : seg.type = 2)
    (hdwell : decodeDwell F data (seg.start + 5) = .ok (dwell, reports, last))
    {tracks : List Target} :
    target ∈ appendTargets dwell seg.start seg.stop 0 reports tracks →
      target ∈ tracks ∨ target.From F data seg := by
  rw [appendTargets_eq, mem_append, mem_mapIdx]
  refine Or.imp_right ?_
  rintro ⟨i, hi, rfl⟩
  refine ⟨htype, rfl, rfl, reports, last, hdwell, ?_⟩
  rw [Nat.zero_add]
  exact getElem?_eq_getElem hi

section Fold

variable {segs : List Segment} {tracks result : List Target}

/-- The targets of a packet come from its dwell segments. -/
theorem from_of_mem
    (h : segs.foldlM (fun tracks seg => decodeSegment F data seg.type seg.start seg.stop tracks)
      tracks = .ok result) {target : Target} (htarget : target ∈ result) :
    target ∈ tracks ∨ ∃ seg ∈ segs, target.From F data seg := by
  induction segs generalizing tracks with
  | nil =>
    cases h
    exact .inl htarget
  | cons seg segs ih =>
    rw [foldlM_cons] at h
    obtain ⟨next, hnext, h⟩ := Checks.bind_eq_ok.mp h
    rcases ih h with hmem | ⟨other, hother, hfrom⟩
    · rcases decodeSegment_ok hnext with ⟨htype, dwell, reports, last, hdwell, rfl⟩ | ⟨-, rfl⟩
      · refine (mem_appendTargets htype hdwell hmem).imp_right fun hfrom => ?_
        exact ⟨seg, .head _, hfrom⟩
      · exact .inl hmem
    · exact .inr ⟨other, .tail _ hother, hfrom⟩

/-- Each report of each dwell segment has a target. -/
theorem exists_target
    (h : segs.foldlM (fun tracks seg => decodeSegment F data seg.type seg.start seg.stop tracks)
      tracks = .ok result) :
    tracks ⊆ result ∧ ∀ seg ∈ segs, seg.type = 2 → ∃ dwell reports last,
      decodeDwell F data (seg.start + 5) = .ok (dwell, reports, last) ∧
        ∀ report ∈ reports, ∃ target ∈ result,
          target.report = report ∧ target.segStart = seg.start ∧ target.segEnd = seg.stop := by
  induction segs generalizing tracks with
  | nil =>
    cases h
    exact ⟨List.Subset.refl _, fun seg hseg => absurd hseg not_mem_nil⟩
  | cons seg segs ih =>
    rw [foldlM_cons] at h
    obtain ⟨next, hnext, h⟩ := Checks.bind_eq_ok.mp h
    obtain ⟨hsubset, hall⟩ := ih h
    rcases decodeSegment_ok hnext with ⟨-, dwell, reports, last, hdwell, rfl⟩ | ⟨htype, rfl⟩
    · rw [appendTargets_eq] at hsubset
      refine ⟨fun target htarget => hsubset (mem_append_left _ htarget), ?_⟩
      intro other hother htwo
      cases hother with
      | head =>
        refine ⟨dwell, reports, last, hdwell, fun report hreport => ?_⟩
        obtain ⟨i, hi, rfl⟩ := getElem_of_mem hreport
        refine ⟨_, hsubset (mem_append_right _ (mem_mapIdx.mpr ⟨i, hi, rfl⟩)), rfl, rfl,
          rfl⟩
      | tail _ hother => exact hall other hother htwo
    · refine ⟨hsubset, fun other hother htwo => ?_⟩
      cases hother with
      | head => exact absurd htwo htype
      | tail _ hother => exact hall other hother htwo

end Fold

/-! ## Extents -/

variable {header : Header} {targets : List Target}

theorem Target.From.decoded (h : target.From F data seg) :
    decodeTargetReport F data target.report.start (dwellMask data (seg.start + 5)) =
        .ok (target.report.report, target.report.stop) ∧
      reportsStart F data (seg.start + 5) ≤ target.report.start ∧
        target.report.stop ≤ reportsStop F data (seg.start + 5) := by
  obtain ⟨-, -, -, reports, last, hdwell, hreport⟩ := h
  exact (decodeDwell_spec hdwell).1 _ (mem_of_getElem? hreport)

/-- The report of a target is decoded from the bytes between its two positions, whatever the other
bytes are. -/
def Target.DecodedFrom (F : FloatMath) (data : List UInt8) (target : Target) : Prop :=
  ∃ mask, ∀ data', (∀ i, target.report.start ≤ i → i < target.report.stop →
    data'[i]? = data[i]?) → decodeTargetReport F data' target.report.start mask =
      .ok (target.report.report, target.report.stop)

/-- Rows of reports whose bytes all lie inside end inside. -/
theorem reports_fit (h : decodePacket F data = .ok (some (header, targets)))
    (hinside : ∀ target ∈ targets, ∀ i, target.report.start ≤ i → i < target.report.stop →
      target.segStart ≤ i ∧ i < target.segEnd ∧ i < min header.packetSize data.length) :
    ∀ seg ∈ packetSegments data header, seg.type = 2 →
      0 < targetCount data (seg.start + 5) → 0 < reportSize F data (seg.start + 5) →
        reportsStop F data (seg.start + 5) ≤
          min seg.stop (min header.packetSize data.length) := by
  intro seg hseg htype hcount hsize
  obtain ⟨dwell, reports, last, hdwell, hall⟩ :=
    (exists_target (decodePacket_eq h).2).2 seg hseg htype
  -- The last report ends where the row of reports does.
  obtain ⟨report, hreport, hstop⟩ := (decodeDwell_spec hdwell).2 hcount
  obtain ⟨hdecoded, hstart, -⟩ := (decodeDwell_spec hdwell).1 report hreport
  obtain ⟨target, htarget, htargetReport, -, hend⟩ := hall report hreport
  have hlength : report.stop = report.start + reportSize F data (seg.start + 5) :=
    readFields_pos hdecoded
  have hbyte := hinside target htarget (report.stop - 1)
  rw [htargetReport, hend] at hbyte
  obtain ⟨-, hsegment, hpacket⟩ := hbyte (by omega) (by omega)
  rw [← hstop]
  omega

/-- Targets are decoded from bytes of their own segment and of the packet exactly when each dwell
segment that has reports is as long as its mask and its count ask for, and ends in the packet. -/
theorem targets_inside_iff (h : decodePacket F data = .ok (some (header, targets))) :
    (∀ target ∈ targets, ∀ i, target.report.start ≤ i → i < target.report.stop →
      target.segStart ≤ i ∧ i < target.segEnd ∧ i < min header.packetSize data.length) ↔
    ∀ seg ∈ packetSegments data header, seg.type = 2 →
      0 < targetCount data (seg.start + 5) → 0 < reportSize F data (seg.start + 5) →
        reportsStop F data (seg.start + 5) ≤
          min seg.stop (min header.packetSize data.length) := by
  refine ⟨reports_fit h, fun hfits target htarget i hi hlt => ?_⟩
  rcases from_of_mem (decodePacket_eq h).2 htarget with hnil | ⟨seg, hseg, hfrom⟩
  · cases hnil
  · obtain ⟨hdecoded, hstart, hstop⟩ := hfrom.decoded
    obtain ⟨htype, hsegStart, hsegEnd, reports, last, hdwell, hreport⟩ := hfrom
    have hlength : target.report.stop =
        target.report.start + reportSize F data (seg.start + 5) := readFields_pos hdecoded
    have hcount : 0 < targetCount data (seg.start + 5) := by
      by_contra hzero
      have hempty : reportsStop F data (seg.start + 5) = reportsStart F data (seg.start + 5) := by
        rw [reportsStop, Nat.eq_zero_of_not_pos hzero, Nat.zero_mul, Nat.add_zero]
      omega
    have hrow := hfits seg hseg htype hcount (by omega)
    have hbody : seg.start + 5 ≤ reportsStart F data (seg.start + 5) := by
      rw [reportsStart]
      omega
    omega

/-- A dwell segment whose size leaves out its one target report, an index, and an empty segment
behind it. -/
def shortDwell : List UInt8 :=
  [65, 51, 0, 0, 0, 85] ++ List.replicate 25 0 ++ [1] ++
    [2, 0, 0, 0, 48, 0, 0, 0, 2, 0, 0, 0, 0, 0, 0, 0, 7, 0, 0, 1] ++ List.replicate 28 0 ++
      [99, 0, 0, 0, 5]

theorem segments_shortDwell : segments shortDwell 85 32 = [⟨2, 32, 80⟩, ⟨99, 80, 85⟩] := by
  rw [segments_cons (n := 43) (by decide) (by decide), segments_cons (n := 0) (by decide) (by decide),
    segments, if_neg (by decide)]
  rfl

theorem decodePacket_shortDwell : ∃ header targets,
    decodePacket Asterix.exactMath shortDwell = .ok (some (header, targets)) ∧
      packetSegments shortDwell header = [⟨2, 32, 80⟩, ⟨99, 80, 85⟩] := by
  obtain ⟨header, hheader⟩ := exists_header (show 32 ≤ shortDwell.length by decide)
  have hsegments : packetSegments shortDwell header = [⟨2, 32, 80⟩, ⟨99, 80, 85⟩] := by
    rw [packetSegments, packetSize_of_header hheader]
    exact segments_shortDwell
  obtain ⟨targets, htargets⟩ := Checks.exists_of_isOk (show ([⟨2, 32, 80⟩, ⟨99, 80, 85⟩].foldlM
    (fun tracks (seg : Segment) =>
      decodeSegment Asterix.exactMath shortDwell seg.type seg.start seg.stop tracks) []).isOk = true
        by decide +kernel)
  exact ⟨header, targets, decodePacket_of_fold hheader (by rw [hsegments]; exact htargets), hsegments⟩

/-- A target is decoded from the first bytes of the segment behind its own one. -/
theorem reads_next_segment : ¬ ∀ (data : List UInt8) (header : Header) (targets : List Target),
    decodePacket Asterix.exactMath data = .ok (some (header, targets)) → ∀ target ∈ targets, ∀ i,
      target.report.start ≤ i → i < target.report.stop → target.segStart ≤ i ∧ i < target.segEnd ∧
        i < min header.packetSize data.length := by
  intro h
  obtain ⟨header, targets, hdecode, hsegments⟩ := decodePacket_shortDwell
  have hfits := reports_fit hdecode (h _ _ _ hdecode) ⟨2, 32, 80⟩
    (by rw [hsegments]; exact .head _) rfl (by decide) (by decide +kernel)
  have hstop : reportsStop Asterix.exactMath shortDwell 37 = 82 := by decide +kernel
  rw [hstop] at hfits
  exact absurd (Nat.le_min.mp hfits).1 (by decide)

/-- The condition for the dwell that leaves out its target report. -/
theorem short_dwell_iff : ∃ header targets,
    decodePacket Asterix.exactMath shortDwell = .ok (some (header, targets)) ∧
    ((∀ target ∈ targets, ∀ i, target.report.start ≤ i → i < target.report.stop →
      target.segStart ≤ i ∧ i < target.segEnd ∧ i < min header.packetSize shortDwell.length) ↔
    ∀ seg ∈ packetSegments shortDwell header, seg.type = 2 →
      0 < targetCount shortDwell (seg.start + 5) →
        0 < reportSize Asterix.exactMath shortDwell (seg.start + 5) →
          reportsStop Asterix.exactMath shortDwell (seg.start + 5) ≤
            min seg.stop (min header.packetSize shortDwell.length)) := by
  obtain ⟨header, targets, hdecode, -⟩ := decodePacket_shortDwell
  exact ⟨header, targets, hdecode, targets_inside_iff hdecode⟩

end Efdi.Stanag.Gmti

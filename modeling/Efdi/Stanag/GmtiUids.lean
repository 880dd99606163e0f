import Efdi.Stanag.GmtiExtents
import Efdi.Tracks.RadarCache

/-!
# The uids of GMTI reports

The uid of a track has the job, the dwell index and a number: the target report index, or the
number of tracks before it in the packet where no index is sent (`uid_eq_iff`).  The revisit index
is not in it and the two kinds of numbers share their range, so different reports have different
uids exactly when no two of them clash (`uids_differ_iff`).
-/

namespace Efdi.Stanag.Gmti

open List Option
open Asterix (FloatMath num)
open Tracks (PyText Track)

variable {F : FloatMath} {py : PyText} {data : List UInt8}

/-! ## The entries of the dictionaries -/

/-- What every field keeps is kept by the decoder. -/
theorem readFields_keeps {P : Track → Prop} {fields : List Field}
    (hP : ∀ field ∈ fields, ∀ raw out, P out → P (setAll (field.write raw) out))
    {out out' : Track} {pos pos' : Nat} (hout : P out)
    (h : readFields data fields out pos = .ok (out', pos')) : P out' := by
  induction fields generalizing out pos with
  | nil =>
    cases h
    exact hout
  | cons field fields ih =>
    obtain ⟨hfield, hfields⟩ := forall_mem_cons.mp hP
    obtain ⟨raw, h⟩ := readFields_cons h
    exact ih hfields (hfield raw out hout) h

theorem get?_setAll {key : String} {pairs : List (String × PyJson)}
    (h : key ∉ pairs.map Prod.fst) (out : Track) :
    (setAll pairs out).get? key = out.get? key := by
  induction pairs generalizing out with
  | nil => rfl
  | cons pair pairs ih =>
    rw [map_cons, mem_cons, not_or] at h
    rw [setAll, foldl_cons]
    exact (ih h.2 _).trans (PyDict.get?_set_of_ne out h.1 pair.2)

theorem mem_of_mem_present {mask : Nat} {fields : List (Option Nat × Field)} {field : Field}
    (h : field ∈ present mask fields) : field ∈ fields.map Prod.snd := by
  obtain ⟨entry, hentry, rfl⟩ := mem_map.mp h
  exact mem_map_of_mem (mem_of_mem_filter hentry)

/-- The fields of a dwell behind its count leave its index alone. -/
theorem dwellFields_keep : ∀ field ∈ (dwellFields F).map Prod.snd, ∀ raw : List UInt8,
    "dwell_index" ∉ (field.write raw).map Prod.fst := by
  simp [dwellFields, unsigned, signed, octet]

/-- A dwell has a dwell index, which is a number. -/
theorem dwellIndex_num {body last : Nat} {dwell : Track} {reports : List TargetReport}
    (h : decodeDwell F data body = .ok (dwell, reports, last)) :
    ∃ n : Nat, entry dwell "dwell_index" = num n := by
  rw [decodeDwell] at h
  obtain ⟨high, -, h⟩ := Checks.bind_eq_ok.mp h
  obtain ⟨low, -, h⟩ := Checks.bind_eq_ok.mp h
  obtain ⟨⟨head, pos⟩, hhead, h⟩ := Checks.bind_eq_ok.mp h
  obtain ⟨count, -, h⟩ := Checks.bind_eq_ok.mp h
  obtain ⟨⟨fields, pos'⟩, hfields, h⟩ := Checks.bind_eq_ok.mp h
  obtain ⟨⟨targets, pos''⟩, -, h⟩ := Checks.bind_eq_ok.mp h
  cases h
  have hindex : ∃ n : Nat, head.get? "dwell_index" = some (num n) := by
    obtain ⟨revisit, hhead⟩ := readFields_cons hhead
    obtain ⟨index, hhead⟩ := readFields_cons hhead
    obtain ⟨lastDwell, hhead⟩ := readFields_cons hhead
    cases hhead
    exact ⟨_, (get?_setAll (by simp [octet]) _).trans (PyDict.get?_set_self _ _ _)⟩
  obtain ⟨n, hn⟩ := hindex
  have hkept : dwell.get? "dwell_index" = some (num n) := by
    refine readFields_keeps (P := fun out => out.get? "dwell_index" = some (num n)) ?_ hn hfields
    intro field hfield raw out hout
    rw [get?_setAll (dwellFields_keep field (mem_of_mem_present hfield) raw), hout]
  exact ⟨n, by rw [entry, hkept]; rfl⟩

/-- The fields of a target report behind its index leave it alone. -/
theorem targetReportFields_keep : ∀ field ∈ ((targetReportFields F).map Prod.snd).tail,
    ∀ raw : List UInt8, "target_report_index" ∉ (field.write raw).map Prod.fst := by
  simp [targetReportFields, unsigned, signed, octet]

/-- A target report index is a number where it is there. -/
theorem reportIndex_num {pos stop mask : Nat} {report : Track}
    (h : decodeTargetReport F data pos mask = .ok (report, stop)) :
    report.get? "target_report_index" = none ∨
      ∃ n : Nat, report.get? "target_report_index" = some (num n) := by
  refine readFields_keeps (P := fun out => out.get? "target_report_index" = none ∨
    ∃ n : Nat, out.get? "target_report_index" = some (num n)) ?_ (.inl rfl) h
  intro field hfield raw out hout
  rcases mem_cons.mp (mem_of_mem_present hfield) with rfl | hrest
  · exact .inr ⟨_, PyDict.get?_set_self out _ _⟩
  · rwa [get?_setAll (targetReportFields_keep field hrest raw)]

/-! ## The tracks before a target -/

/-! ## Uids -/

/-- The target report index, where it is sent. -/
def Target.index (target : Target) : Option PyJson :=
  target.report.report.get? "target_report_index"

/-- What of a report is its own: the revisit, the dwell, and its index or else its position among the
reports of the dwell. -/
def Target.key (target : Target) : PyJson × PyJson × (PyJson ⊕ Nat) :=
  (entry target.dwell "revisit_index", entry target.dwell "dwell_index",
    match target.index with
    | some index => .inl index
    | none => .inr target.position)

/-- The targets of a packet, each with the uid of its track. -/
def identified (F : FloatMath) (py : PyText) (data : List UInt8) : List (Target × String) :=
  match decodePacket F data with
  | .ok (some (header, targets)) =>
    targets.map fun target => (target, target.uid py header.jobId)
  | _ => []

theorem split_uid (jobId : Nat) {target : Target} {dwell number : Nat}
    (hdwell : entry target.dwell "dwell_index" = num dwell) (hnumber : target.number = num number) :
    PyStr.split '-' (target.uid py jobId) =
      ["stanag4607", toString (jobId : Int), toString (dwell : Int), toString (number : Int)] := by
  have hdash : ∀ n : Nat, PyStr.split '-' (toString (n : Int)) = [toString (n : Int)] := fun n =>
    PyStr.split_of_notMem (Tracks.dash_notMem_toString n)
  have huid : target.uid py jobId = "stanag4607" ++ (String.ofList ['-'] ++ (toString (jobId : Int) ++
      (String.ofList ['-'] ++ (toString (dwell : Int) ++
        (String.ofList ['-'] ++ toString (number : Int)))))) := by
    rw [Target.uid, hdwell, hnumber]
    simp only [String.append_assoc]
    rfl
  rw [huid, PyStr.split_append, PyStr.split_append, PyStr.split_append, hdash, hdash, hdash]
  rfl

/-- Two uids are equal exactly when the job, the dwell index and the number are. -/
theorem uid_eq_iff {jobId jobId' dwell dwell' number number' : Nat} {target target' : Target}
    (hdwell : entry target.dwell "dwell_index" = num dwell) (hnumber : target.number = num number)
    (hdwell' : entry target'.dwell "dwell_index" = num dwell')
    (hnumber' : target'.number = num number') :
    target.uid py jobId = target'.uid py jobId' ↔
      jobId = jobId' ∧ dwell = dwell' ∧ number = number' := by
  constructor
  · intro h
    have hsplit := congrArg (PyStr.split '-') h
    rw [split_uid jobId hdwell hnumber, split_uid jobId' hdwell' hnumber'] at hsplit
    simp only [cons.injEq, and_true, true_and] at hsplit
    obtain ⟨hjob, hdwell, hnumber⟩ := hsplit
    exact ⟨Tracks.toString_nat_inj hjob, Tracks.toString_nat_inj hdwell,
      Tracks.toString_nat_inj hnumber⟩
  · rintro ⟨rfl, rfl, rfl⟩
    rw [Target.uid, Target.uid, hdwell, hdwell', hnumber, hnumber']

/-! ## Clashes -/

/-- Two different reports of one dwell index that get one number. -/
inductive Clash (target target' : Target) : Prop
  /-- Both send the same index, in different revisits. -/
  | revisit (hdwell : entry target.dwell "dwell_index" = entry target'.dwell "dwell_index")
      {index : PyJson} (hindex : target.index = some index) (hindex' : target'.index = some index)
      (hrevisit : entry target.dwell "revisit_index" ≠ entry target'.dwell "revisit_index")
  /-- Neither sends an index, and they have as many tracks before them, in different packets. -/
  | counted (hdwell : entry target.dwell "dwell_index" = entry target'.dwell "dwell_index")
      (hindex : target.index = none) (hindex' : target'.index = none)
      (hbefore : target.before = target'.before)
      (hother : entry target.dwell "revisit_index" ≠ entry target'.dwell "revisit_index" ∨
        target.position ≠ target'.position)
  /-- One sends as its index the number of tracks before the other, which sends none. -/
  | mixed (hdwell : entry target.dwell "dwell_index" = entry target'.dwell "dwell_index")
      (hindex : target.index = some (num target'.before)) (hindex' : target'.index = none)

variable {target target' : Target}

theorem num_inj {m n : Nat} (h : num m = num n) : m = n := Int.ofNat_inj.mp (PyJson.int.inj h)

theorem Clash.key_ne (h : Clash target target') :
    entry target.dwell "dwell_index" = entry target'.dwell "dwell_index" ∧
      target.number = target'.number ∧ target.key ≠ target'.key := by
  cases h with
  | revisit hdwell hindex hindex' hrevisit =>
    refine ⟨hdwell, ?_, fun h => hrevisit (congrArg Prod.fst h)⟩
    rw [Target.index] at hindex hindex'
    rw [Target.number, Target.number, hindex, hindex']
    rfl
  | counted hdwell hindex hindex' hbefore hother =>
    refine ⟨hdwell, ?_, fun h => ?_⟩
    · rw [Target.index] at hindex hindex'
      rw [Target.number, Target.number, hindex, hindex', hbefore]
    · have hplace := congrArg (fun key => key.2.2) h
      rw [Target.key, Target.key, hindex, hindex'] at hplace
      rcases hother with hrevisit | hposition
      · exact hrevisit (congrArg Prod.fst h)
      · exact hposition (Sum.inr.inj hplace)
  | mixed hdwell hindex hindex' =>
    refine ⟨hdwell, ?_, fun h => ?_⟩
    · rw [Target.index] at hindex hindex'
      rw [Target.number, Target.number, hindex, hindex']
      rfl
    · have hplace := congrArg (fun key => key.2.2) h
      rw [Target.key, Target.key, hindex, hindex'] at hplace
      cases hplace

/-- Different reports with one dwell index and one number clash. -/
theorem clash_of_number (hdwell : entry target.dwell "dwell_index" = entry target'.dwell "dwell_index")
    (hnumber : target.number = target'.number) (hkey : target.key ≠ target'.key) :
    Clash target target' ∨ Clash target' target := by
  have hget : target.number = target.index.getD (num target.before) := rfl
  have hget' : target'.number = target'.index.getD (num target'.before) := rfl
  rw [hget, hget'] at hnumber
  rw [Target.key, Target.key, hdwell] at hkey
  cases hindex : target.index with
  | some index =>
    rw [hindex, getD_some] at hnumber
    cases hindex' : target'.index with
    | some index' =>
      rw [hindex', getD_some] at hnumber
      subst hnumber
      refine .inl (.revisit hdwell hindex hindex' fun hrevisit => hkey ?_)
      rw [hrevisit, hindex, hindex']
    | none =>
      rw [hindex', getD_none] at hnumber
      subst hnumber
      exact .inl (.mixed hdwell hindex hindex')
  | none =>
    rw [hindex, getD_none] at hnumber
    cases hindex' : target'.index with
    | some index' =>
      rw [hindex', getD_some] at hnumber
      subst hnumber
      exact .inr (.mixed hdwell.symm hindex' hindex)
    | none =>
      rw [hindex', getD_none] at hnumber
      refine .inl (.counted hdwell hindex hindex' (num_inj hnumber) ?_)
      by_contra hsame
      rw [not_or, not_not, not_not] at hsame
      refine hkey ?_
      rw [hindex, hindex', hsame.1, hsame.2]

theorem Target.From.numbers {seg : Segment} (h : target.From F data seg) :
    ∃ dwell number : Nat, entry target.dwell "dwell_index" = num dwell ∧
      target.number = num number := by
  have hindex := reportIndex_num h.decoded.1
  obtain ⟨-, -, -, reports, last, hdwell, -⟩ := h
  obtain ⟨dwell, hindexOfDwell⟩ := dwellIndex_num hdwell
  rcases hindex with hnone | ⟨number, hnumber⟩
  · exact ⟨dwell, target.before, hindexOfDwell, by rw [Target.number, hnone]; rfl⟩
  · exact ⟨dwell, number, hindexOfDwell, by rw [Target.number, hnumber]; rfl⟩

theorem jobId_of_header {header : Header} (h : decodeHeader data = some header) :
    header.jobId = numberAt data 28 32 := by
  rw [decodeHeader] at h
  split at h
  · cases h
  · cases h
    rfl

theorem mem_identified {item : Target × String} (h : item ∈ identified F py data) :
    ∃ dwell number : Nat, entry item.1.dwell "dwell_index" = num dwell ∧
      item.1.number = num number ∧ item.2 = item.1.uid py (numberAt data 28 32) := by
  rw [identified] at h
  split at h
  next header targets hdecode =>
    obtain ⟨target, htarget, rfl⟩ := mem_map.mp h
    obtain ⟨hheader, hfold⟩ := decodePacket_eq hdecode
    rcases from_of_mem hfold htarget with hnil | ⟨seg, -, hfrom⟩
    · cases hnil
    · obtain ⟨dwell, number, hdwell, hnumber⟩ := hfrom.numbers
      exact ⟨dwell, number, hdwell, hnumber, by rw [jobId_of_header hheader]⟩
  next => cases h

/-- Different reports of the packets of one job have different uids exactly when no two reports
clash. -/
theorem uids_differ_iff {packets : List (List UInt8)} {jobId : Nat}
    (hjob : ∀ data ∈ packets, numberAt data 28 32 = jobId) :
    (∀ item ∈ packets.flatMap (identified F py), ∀ item' ∈ packets.flatMap (identified F py),
      item.1.key ≠ item'.1.key → item.2 ≠ item'.2) ↔
    ∀ item ∈ packets.flatMap (identified F py), ∀ item' ∈ packets.flatMap (identified F py),
      ¬ Clash item.1 item'.1 := by
  have huid : ∀ item ∈ packets.flatMap (identified F py),
      ∀ item' ∈ packets.flatMap (identified F py), item.2 = item'.2 ↔
        entry item.1.dwell "dwell_index" = entry item'.1.dwell "dwell_index" ∧
          item.1.number = item'.1.number := by
    intro item hitem item' hitem'
    obtain ⟨data, hdata, hmem⟩ := List.mem_flatMap.mp hitem
    obtain ⟨data', hdata', hmem'⟩ := List.mem_flatMap.mp hitem'
    obtain ⟨dwell, number, hdwell, hnumber, hitemUid⟩ := mem_identified hmem
    obtain ⟨dwell', number', hdwell', hnumber', hitemUid'⟩ := mem_identified hmem'
    rw [hitemUid, hitemUid', hjob data hdata, hjob data' hdata',
      uid_eq_iff hdwell hnumber hdwell' hnumber', hdwell, hdwell', hnumber, hnumber']
    constructor
    · rintro ⟨-, rfl, rfl⟩
      exact ⟨rfl, rfl⟩
    · rintro ⟨hd, hn⟩
      exact ⟨rfl, num_inj hd, num_inj hn⟩
  constructor
  · intro hdiffer item hitem item' hitem' hclash
    obtain ⟨hdwell, hnumber, hkey⟩ := hclash.key_ne
    exact hdiffer item hitem item' hitem' hkey ((huid item hitem item' hitem').mpr ⟨hdwell, hnumber⟩)
  · intro hclash item hitem item' hitem' hkey heq
    obtain ⟨hdwell, hnumber⟩ := (huid item hitem item' hitem').mp heq
    rcases clash_of_number hdwell hnumber hkey with h | h
    · exact hclash item hitem item' hitem' h
    · exact hclash item' hitem' item hitem h

/-- A dwell of a revisit with dwell index 7 and one target report, with index 0. -/
def dwellOfRevisit (revisit : UInt8) : List UInt8 :=
  [2, 0, 0, 0, 50, 0, 0, 0, 2, 0, 0, 0, 0, 0, revisit, 0, 7, 0, 0, 1] ++ List.replicate 30 0

/-- A packet of job 1 with the dwells of two revisits. -/
def twoRevisits : List UInt8 :=
  [65, 51, 0, 0, 0, 132] ++ List.replicate 25 0 ++ [1] ++ dwellOfRevisit 0 ++ dwellOfRevisit 1

theorem segments_twoRevisits : segments twoRevisits 132 32 = [⟨2, 32, 82⟩, ⟨2, 82, 132⟩] := by
  rw [segments_cons (n := 45) (by decide) (by decide +kernel),
    segments_cons (n := 45) (by decide) (by decide +kernel), segments, if_neg (by decide)]
  have hfirst : numberAt twoRevisits 32 33 = 2 := by decide +kernel
  have hsecond : numberAt twoRevisits 82 83 = 2 := by decide +kernel
  simp [hfirst, hsecond]

/-- The loop over the segments of the packet. -/
def twoRevisitsLoop : Except GmtiError (List Target) :=
  [⟨2, 32, 82⟩, ⟨2, 82, 132⟩].foldlM (fun tracks (seg : Segment) =>
    decodeSegment Asterix.exactMath twoRevisits seg.type seg.start seg.stop tracks) []

theorem decodePacket_twoRevisits : ∃ header, header.jobId = 1 ∧
    decodePacket Asterix.exactMath twoRevisits =
      twoRevisitsLoop.map fun tracks => some (header, tracks) := by
  obtain ⟨header, hheader⟩ := exists_header (show 32 ≤ twoRevisits.length by decide +kernel)
  have hjob : numberAt twoRevisits 28 32 = 1 := by decide +kernel
  have hsize : min (numberAt twoRevisits 2 6) twoRevisits.length = 132 := by decide +kernel
  refine ⟨header, (jobId_of_header hheader).trans hjob, ?_⟩
  rw [decodePacket, hheader]
  dsimp only
  rw [packetLoop_eq, packetSize_of_header hheader, hsize, segments_twoRevisits, twoRevisitsLoop]

/-- The reports of two revisits get one uid. -/
theorem identified_twoRevisits :
    (identified Asterix.exactMath Tracks.asciiText twoRevisits).map
        (fun item => (item.2, item.1.key)) =
      [("stanag4607-1-7-0", .int 0, .int 7, .inl (.int 0)),
        ("stanag4607-1-7-0", .int 1, .int 7, .inl (.int 0))] := by
  obtain ⟨header, hjob, hdecode⟩ := decodePacket_twoRevisits
  have hloop : twoRevisitsLoop.map (fun targets => targets.map fun target =>
      (target.uid Tracks.asciiText 1, target.key)) =
        .ok [("stanag4607-1-7-0", .int 0, .int 7, .inl (.int 0)),
          ("stanag4607-1-7-0", .int 1, .int 7, .inl (.int 0))] := by rfl
  rw [identified, hdecode]
  cases hrun : twoRevisitsLoop with
  | error e =>
    rw [hrun] at hloop
    cases hloop
  | ok targets =>
    rw [hrun] at hloop
    rw [← Except.ok.inj hloop, ← hjob]
    exact map_map

/-- Two reports of different revisits share a uid. -/
theorem revisits_share_uid : ¬ ∀ (packets : List (List UInt8)) (jobId : Nat),
    (∀ data ∈ packets, numberAt data 28 32 = jobId) →
      ∀ item ∈ packets.flatMap (identified Asterix.exactMath Tracks.asciiText),
        ∀ item' ∈ packets.flatMap (identified Asterix.exactMath Tracks.asciiText),
          item.1.key ≠ item'.1.key → item.2 ≠ item'.2 := by
  intro h
  have hjob : ∀ data ∈ [twoRevisits], numberAt data 28 32 = 1 := by
    intro data hdata
    rw [List.mem_singleton.mp hdata]
    decide +kernel
  have hpair := identified_twoRevisits
  obtain ⟨first, rest, hfirst, hvalue, hrest⟩ := List.map_eq_cons_iff.mp hpair
  obtain ⟨second, rest', hsecond, hvalue', -⟩ := List.map_eq_cons_iff.mp hrest
  have hitems : [twoRevisits].flatMap (identified Asterix.exactMath Tracks.asciiText) =
      first :: second :: rest' := by
    rw [List.flatMap_singleton, hfirst, hsecond]
  have hdiffer := h [twoRevisits] 1 hjob first (by rw [hitems]; exact List.mem_cons_self) second
    (by rw [hitems]; exact List.mem_cons_of_mem _ List.mem_cons_self)
  obtain ⟨huid, hkey⟩ := Prod.mk.inj hvalue
  obtain ⟨huid', hkey'⟩ := Prod.mk.inj hvalue'
  rw [hkey, hkey', huid, huid'] at hdiffer
  exact hdiffer (by decide) rfl

/-- The condition for the packet with two revisits. -/
theorem two_revisits_iff :
    (∀ item ∈ [twoRevisits].flatMap (identified Asterix.exactMath Tracks.asciiText),
      ∀ item' ∈ [twoRevisits].flatMap (identified Asterix.exactMath Tracks.asciiText),
        item.1.key ≠ item'.1.key → item.2 ≠ item'.2) ↔
    ∀ item ∈ [twoRevisits].flatMap (identified Asterix.exactMath Tracks.asciiText),
      ∀ item' ∈ [twoRevisits].flatMap (identified Asterix.exactMath Tracks.asciiText),
        ¬ Clash item.1 item'.1 :=
  uids_differ_iff (show ∀ data ∈ [twoRevisits], numberAt data 28 32 = 1 by decide +kernel)

end Efdi.Stanag.Gmti

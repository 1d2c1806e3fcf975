import RecordWire.Proofs.TextGrammar
import RecordWire.Proofs.TextRoundTrip
/-!
# Record files

A record file holds one record's text per line, each ended by a line feed. A record's text has
no line break, since the tokens it is made of have none (`BareText`), so the lines of the file
are exactly the records' texts, one per record. Reading the file reads each line as a whole text
and stops at the first blank line; every record's text starts with a character that is no
blank, so none of them stops it early, and each reads back as its canonical value
(`fromText_toText`). A line feed right after the last record makes an empty line, so whatever
comes after it is never read.

Main statement: `record_file_round_trip`.
-/

namespace RecordWire

namespace Schema

/-! ## Lines -/

theorem textLines_line {l : List Char} (hn : '\n' ∉ l) (hr : '\r' ∉ l) (cs : List Char) :
    textLines (l ++ '\n' :: cs) = l :: textLines cs := by
  have hstrip : (if l.getLast? = some '\r' then l.dropLast else l) = l :=
    if_neg fun h => hr (List.mem_of_getLast? h)
  by_cases hcs : cs = []
  · subst hcs
    simp [textLines, List.splitOn_append_cons_self_of_not_mem hn, hstrip]
  · -- the pieces are the line and then those of the rest, whose last piece decides the same
    have hpieces : ∀ P : List (List Char), P ≠ [] →
        (if (l :: P).getLast? = some [] then (l :: P).dropLast else l :: P) =
          l :: if P.getLast? = some [] then P.dropLast else P := by
      intro P hP
      obtain ⟨p, P', rfl⟩ := List.exists_cons_of_ne_nil hP
      rw [List.getLast?_cons_cons, List.dropLast_cons_of_ne_nil (List.cons_ne_nil _ _)]
      split_ifs <;> rfl
    have hlast : (l ++ '\n' :: cs).getLast? = cs.getLast? := by
      rw [← List.singleton_append, ← List.append_assoc, List.getLast?_append_of_ne_nil _ hcs]
    simp only [textLines, List.splitOn_append_cons_self_of_not_mem hn, hlast,
      hpieces _ (List.splitOn_ne_nil _ _)]
    generalize (if (cs.splitOn '\n').getLast? = some [] then (cs.splitOn '\n').dropLast
      else cs.splitOn '\n') = Q
    -- the line comes first, whole; each later line keeps its place among the rest
    rw [List.zipIdx_cons, List.zipIdx_succ, List.map_cons, List.map_map]
    refine congrArg₂ _ (by dsimp only; rw [hstrip, ite_self]) (List.map_congr_left fun x _ => ?_)
    simp only [Function.comp, List.length_cons, Nat.add_lt_add_iff_right]

/-- Lines with no line break, each ended by a line feed, followed by a text: those lines, then
the text's. -/
theorem textLines_lines {ls : List (List Char)} (h : ∀ l ∈ ls, '\n' ∉ l ∧ '\r' ∉ l)
    (cs : List Char) : textLines (ls.flatMap (· ++ ['\n']) ++ cs) = ls ++ textLines cs := by
  induction ls with
  | nil => rfl
  | cons l ls ih =>
    obtain ⟨hn, hr⟩ := h l List.mem_cons_self
    rw [List.flatMap_cons, List.append_assoc, List.append_assoc, List.singleton_append,
      textLines_line hn hr, ih fun l' hl' => h l' (List.mem_cons_of_mem _ hl'), List.cons_append]

theorem textLines_nil : textLines [] = [] := by
  simp [textLines]

/-! ## One record per line -/

variable {ι : Type} {S : Schema ι}

theorem line_breaks_not_mem_render {ts : List TextToken} (h : ∀ t ∈ ts, BareText t.chars) :
    '\n' ∉ TextToken.render ts ∧ '\r' ∉ TextToken.render ts := by
  simp only [TextToken.render, List.mem_flatMap, List.mem_append, List.mem_singleton, not_exists,
    not_and, not_or]
  exact ⟨fun t ht => ⟨(h t ht).no_line_feed, by decide⟩,
    fun t ht => ⟨(h t ht).no_return, by decide⟩⟩

/-- The text of a well-typed value is on one line, whatever its strings hold. -/
theorem line_breaks_not_mem_toText {s : Shape ι} {v : Value} (hv : S.Typed s v) :
    '\n' ∉ (S.toText s v).toList ∧ '\r' ∉ (S.toText s v).toList := by
  rw [toText, String.toList_ofList, textOf_eq_render hv]
  exact line_breaks_not_mem_render (bareText_tokens hv)

theorem allBlank_toText {s : Shape ι} {v : Value} (hv : S.Typed s v) :
    allBlank (S.toText s v).toList = false := by
  obtain ⟨c, cs, hbody, hc⟩ := textBody_startsValue hv
  rw [toText, String.toList_ofList, textOf_eq hv, hbody]
  simp [allBlank, isBlank_of_endsToken hc]

/-- A line holding a record's text reads back as the record's canonical value. -/
theorem fromText_line {s : Shape ι} {v : Value} (hv : S.Typed s v) (hf : S.FloatsReadBack s v) :
    S.fromText s (String.ofList (S.toText s v).toList) = .ok (S.canonical s v) := by
  have h := fromText_toText hv hf ""
  rw [String.append_empty, if_pos (show allBlank "".toList = true by decide)] at h
  rwa [String.ofList_toList]

/-- Reading the lines of records one after another reads each record, and the lines after them
end the reading when they start with a blank line. -/
theorem readRecords_go_records {s : Shape ι} {rs : List Value}
    (hrs : ∀ r ∈ rs, S.Typed s r ∧ S.FloatsReadBack s r) {rest : List (List Char)}
    (hrest : readRecords.go S s rest = .ok []) :
    readRecords.go S s (rs.map (fun r => (S.toText s r).toList) ++ rest) =
      .ok (rs.map (S.canonical s)) := by
  induction rs with
  | nil => exact hrest
  | cons r rs ih =>
    obtain ⟨hv, hf⟩ := hrs r List.mem_cons_self
    rw [List.map_cons, List.cons_append, readRecords.go, allBlank_toText hv, fromText_line hv hf,
      ih fun r' hr' => hrs r' (List.mem_cons_of_mem _ hr')]
    rfl

variable (S)

/-- One record per line, and the record file reads back. Writing well-typed records whose
floats read back gives each record's text followed by one line feed; no record's text holds a
line feed or a carriage return, so the file's lines are exactly the records' texts, one for each.
Reading the file gives the records' canonical values, and so does reading it with a line feed and
any text after it, since reading stops at the first blank line. -/
theorem record_file_round_trip {s : Shape ι} {rs : List Value}
    (hrs : ∀ r ∈ rs, S.Typed s r ∧ S.FloatsReadBack s r) :
    (S.writeRecords s rs).toList = rs.flatMap (fun r => (S.toText s r).toList ++ ['\n']) ∧
      (∀ r ∈ rs, '\n' ∉ (S.toText s r).toList ∧ '\r' ∉ (S.toText s r).toList) ∧
      textLines (S.writeRecords s rs).toList = rs.map (fun r => (S.toText s r).toList) ∧
      S.readRecords s (S.writeRecords s rs) = .ok (rs.map (S.canonical s)) ∧
      ∀ t : String,
        S.readRecords s (S.writeRecords s rs ++ "\n" ++ t) = .ok (rs.map (S.canonical s)) := by
  have hwrite : (S.writeRecords s rs).toList =
      (rs.map fun r => (S.toText s r).toList).flatMap (· ++ ['\n']) := by
    simp [writeRecords, String.toList_join, List.flatMap_map]
  have hbreaks : ∀ r ∈ rs, '\n' ∉ (S.toText s r).toList ∧ '\r' ∉ (S.toText s r).toList :=
    fun r hr => line_breaks_not_mem_toText (hrs r hr).1
  have hlines : ∀ l ∈ rs.map (fun r => (S.toText s r).toList), '\n' ∉ l ∧ '\r' ∉ l := by
    simpa using hbreaks
  have hfile :
      textLines (S.writeRecords s rs).toList = rs.map (fun r => (S.toText s r).toList) := by
    rw [hwrite, ← List.append_nil ((List.map _ rs).flatMap _), textLines_lines hlines,
      textLines_nil, List.append_nil]
  refine ⟨by rw [hwrite, List.flatMap_map], hbreaks, hfile, ?_, fun t => ?_⟩
  · rw [readRecords, hfile, ← List.append_nil (List.map _ rs)]
    exact readRecords_go_records hrs rfl
  · -- the line feed after the last record opens an empty line, which ends the reading
    have htail : (S.writeRecords s rs ++ "\n" ++ t).toList =
        (rs.map fun r => (S.toText s r).toList).flatMap (· ++ ['\n']) ++
          ([] ++ '\n' :: t.toList) := by
      simp [hwrite]
    rw [readRecords, htail, textLines_lines hlines, textLines_line (by simp) (by simp)]
    exact readRecords_go_records hrs (by simp [readRecords.go, allBlank])

end Schema

/-- Two users whose strings hold line breaks: the file has one line for each, and reads back as
the two users. -/
theorem users_with_line_breaks_read_back :
    let users : List Value :=
      [.record [.str "line one\nline two", .str "crlf\r\n", .str "", .int 40],
        .record [.str "b", .str "", .str "", .int 41]]
    (∀ r ∈ users,
        catalog.Typed (.record .userInfo) r ∧ catalog.FloatsReadBack (.record .userInfo) r) ∧
      (Schema.textLines (catalog.writeRecords (.record .userInfo) users).toList).length = 2 ∧
      catalog.readRecords (.record .userInfo) (catalog.writeRecords (.record .userInfo) users) =
        .ok users := by
  intro users
  -- no user has a float, so the floats read back vacuously
  have hrs : ∀ r ∈ users, catalog.Typed (.record .userInfo) r ∧
      catalog.FloatsReadBack (.record .userInfo) r := by
    intro r hr
    refine ⟨by revert r; decide, fun t x hx f bits hbits _ _ => ?_⟩
    subst hbits
    simp only [users, List.mem_cons, List.not_mem_nil, or_false] at hr
    rcases hr with rfl | rfl
    · have hpieces : catalog.pieces (.record .userInfo)
          (.record [.str "line one\nline two", .str "crlf\r\n", .str "", .int 40]) =
          [.leaf .string (.str "line one\nline two"), .leaf .string (.str "crlf\r\n"),
            .leaf .string (.str ""), .leaf .i32 (.int 40)] := by decide
      simp [hpieces] at hx
    · have hpieces :
          catalog.pieces (.record .userInfo) (.record [.str "b", .str "", .str "", .int 41]) =
          [.leaf .string (.str "b"), .leaf .string (.str ""), .leaf .string (.str ""),
            .leaf .i32 (.int 41)] := by decide
      simp [hpieces] at hx
  obtain ⟨-, -, hlines, hread, -⟩ := Schema.record_file_round_trip catalog hrs
  refine ⟨hrs, by rw [hlines]; rfl, ?_⟩
  rw [hread]
  decide

end RecordWire

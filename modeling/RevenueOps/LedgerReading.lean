import RevenueOps.LedgerText

/-! Reading the ledger returns what was appended, as long as no details nest too deep for the
reader; a single row that does takes every later read with it. -/
namespace LedgerText

open EconIntents EconLedger JsonValue JsonGrammar SerdeReader

section Dumps

variable {j : Json} {text : String}

theorem writeValue_of_integral (h : Integral j) : ∃ text, writeValue j = .ok text := by
  have hok := (writeValue_ok_iff j).mpr h
  cases hw : writeValue j with
  | error x => simp [hw, Except.isOk, Except.toBool] at hok
  | ok text => exact ⟨text, rfl⟩

theorem pythonDumpsDefault_ok_iff : pythonDumpsDefault j = .ok text ↔ writeValue j = .ok text := by
  unfold pythonDumpsDefault
  cases writeValue j <;> simp [Except.mapError]

theorem pythonDumpsSorted_ok_iff : pythonDumpsSorted j = .ok text ↔ writeValue j = .ok text := by
  unfold pythonDumpsSorted
  cases writeValue j <;> simp [Except.mapError]

theorem pythonDumpsDefault_fails_iff :
    (∃ err, pythonDumpsDefault j = .error err) ↔ ¬Integral j := by
  rw [← writeValue_ok_iff]
  unfold pythonDumpsDefault
  cases writeValue j <;> simp [Except.mapError, Except.isOk, Except.toBool]

end Dumps

section Amounts

variable {m : I64Map}

theorem integral_intMembers (es : List (String × Int64)) :
    IntegralMembers (es.map fun e => (e.1, Json.int e.2.toInt)) := by
  induction es with
  | nil => trivial
  | cons e es ih => exact ⟨trivial, ih⟩

theorem integral_amountsValue (m : I64Map) : Integral (amountsValue m) :=
  integral_intMembers m.toList

theorem memberAmount_int (e : String × Int64) :
    memberAmount (e.1, .int e.2.toInt) = some e := by
  have hrange := And.intro e.2.le_toInt e.2.toInt_lt
  simp only [memberAmount, Json.asI64, hrange, and_self, if_true, Option.map_some,
    Int64.ofInt_toInt]

theorem memberAmounts_int (es : List (String × Int64)) :
    memberAmounts (es.map fun e => (e.1, .int e.2.toInt)) = some (Std.ExtTreeMap.ofList es) := by
  have hall : (es.map fun e => (e.1, Json.int e.2.toInt)).mapM memberAmount = some es := by
    induction es with
    | nil => rfl
    | cons e es ih => simp [memberAmount_int, ih]
  simp [memberAmounts, hall]

theorem ofList_toList (m : I64Map) : Std.ExtTreeMap.ofList m.toList = m := by
  apply Std.ExtTreeMap.ext_getElem?
  intro k
  cases hk : m[k]? with
  | none =>
    apply Std.ExtTreeMap.getElem?_ofList_of_contains_eq_false
    rw [List.contains_eq_mem, decide_eq_false_iff_not, List.mem_map]
    rintro ⟨⟨k', v⟩, hmem, rfl⟩
    have hv := Std.ExtTreeMap.mem_toList_iff_getElem?_eq_some.mp hmem
    simp [hk] at hv
  | some v =>
    exact Std.ExtTreeMap.getElem?_ofList_of_mem Std.ReflCmp.compare_self
      Std.ExtTreeMap.distinct_keys_toList (Std.ExtTreeMap.mem_toList_iff_getElem?_eq_some.mpr hk)

end Amounts

section Rows

variable {c : Call} {row : Row} {t t' : EventTable} {es : List Event}

theorem encode_eq (h : encode c = .ok row) :
    writeValue (amountsValue c.amounts) = .ok row.amountsJson ∧
      writeValue c.details.json = .ok row.detailsJson ∧
      row = ⟨c.eventType, c.intentId, c.idempotencyKey, c.cycleId, c.atTime, row.amountsJson,
        row.detailsJson⟩ := by
  unfold encode at h
  cases hf : checkFields c with
  | error err => simp [hf, bind, Except.bind] at h
  | ok u =>
    cases ha : pythonDumpsDefault (amountsValue c.amounts) with
    | error err => simp [hf, ha, bind, Except.bind] at h
    | ok amountsJson =>
      cases hd : pythonDumpsDefault c.details.json with
      | error err => simp [hf, ha, hd, bind, Except.bind] at h
      | ok detailsJson =>
        simp only [hf, ha, hd, bind, Except.bind, pure, Except.pure, Except.ok.injEq] at h
        subst h
        exact ⟨pythonDumpsDefault_ok_iff.mp ha, pythonDumpsDefault_ok_iff.mp hd, rfl⟩

theorem encode_ok_iff :
    (∃ row, encode c = .ok row) ↔ checkFields c = .ok () ∧ Integral c.details.json := by
  constructor
  · rintro ⟨row, h⟩
    refine ⟨?_, ?_⟩
    · cases hf : checkFields c with
      | error err => simp [encode, hf, bind, Except.bind] at h
      | ok u => rfl
    · rw [← writeValue_ok_iff, (encode_eq h).2.1]
      rfl
  · rintro ⟨hf, hi⟩
    obtain ⟨amountsJson, ha⟩ := writeValue_of_integral (integral_amountsValue c.amounts)
    obtain ⟨detailsJson, hd⟩ := writeValue_of_integral hi
    refine ⟨⟨c.eventType, c.intentId, c.idempotencyKey, c.cycleId, c.atTime, amountsJson,
      detailsJson⟩, ?_⟩
    rw [encode, hf, pythonDumpsDefault_ok_iff.mpr ha, pythonDumpsDefault_ok_iff.mpr hd]
    rfl

theorem append_cases (c : Call) (t : EventTable) :
    (∃ row, encode c = .ok row ∧ t.faults.head?.join = none ∧ append c t =
        (.ok (t.rows.length + 1), ⟨t.rows ++ [row], t.faults.tail⟩)) ∨
      ((∀ row, encode c = .ok row → t.faults.head?.join ≠ none) ∧
        ∃ err faults, append c t = (.error err, ⟨t.rows, faults⟩)) := by
  unfold append
  cases he : encode c with
  | error err => exact Or.inr ⟨by simp, err, t.faults, rfl⟩
  | ok row =>
    cases hf : t.faults.head?.join with
    | none => exact Or.inl ⟨row, rfl, rfl, rfl⟩
    | some err => exact Or.inr ⟨by simp, err, t.faults.tail, rfl⟩

/-- An append is acknowledged unless the call is invalid or the storage fails. -/
theorem append_ok_iff : (∃ id, (append c t).1 = .ok id) ↔
    checkFields c = .ok () ∧ Integral c.details.json ∧ t.faults.head?.join = none := by
  rw [← and_assoc, ← encode_ok_iff]
  rcases append_cases c t with ⟨row, hrow, hf, heq⟩ | ⟨hno, err, faults, heq⟩
  · simp [heq, hf, hrow]
  · simp only [heq, reduceCtorEq, exists_false, false_iff, not_and]
    rintro ⟨row, hrow⟩
    exact hno row hrow

variable [SerdeReader]

theorem events_zero (t : EventTable) : events 0 t = decodeRows (t.rows.zipIdx 1) := by
  unfold events
  rw [List.filter_eq_self.mpr]
  rintro ⟨row, i⟩ hr
  have hi := (List.mem_zipIdx hr).1
  simp only [decide_eq_true_eq]
  omega

theorem decodeRows_append (rs ss : List (Row × ℕ)) : decodeRows (rs ++ ss) =
    decodeRows rs >>= fun es => decodeRows ss >>= fun fs => pure (es ++ fs) := by
  induction rs with
  | nil => cases h : decodeRows ss <;> simp [decodeRows, h, bind, Except.bind, pure, Except.pure]
  | cons r rs ih =>
    cases hr : decodeRow r.1 with
    | error err => simp [decodeRows, hr, bind, Except.bind]
    | ok c =>
      cases hrs : decodeRows rs with
      | error err => simp [decodeRows, ih, hr, hrs, bind, Except.bind]
      | ok es =>
        cases hss : decodeRows ss <;>
          simp [decodeRows, ih, hr, hrs, hss, bind, Except.bind, pure, Except.pure]

variable [LawfulReader]

theorem amounts_read (h : encode c = .ok row) : amountsFromStr row.amountsJson = .ok c.amounts := by
  have hmembers := memberAmounts_int c.amounts.toList
  rw [ofList_toList] at hmembers
  exact LawfulReader.amounts (decode_writeValue (encode_eq h).1) hmembers

theorem decodeRow_encode (h : encode c = .ok row) (hn : nesting c.details.json < recursionLimit) :
    decodeRow row = .ok c := by
  obtain ⟨-, hd, hrow⟩ := encode_eq h
  have hintegral := (encode_ok_iff.mp ⟨row, h⟩).2
  have hread := LawfulReader.accepts (decode_writeValue hd) hintegral hn
  unfold decodeRow
  rw [amounts_read h, hread, hrow]
  rfl

theorem decodeRow_deep (h : encode c = .ok row) (hn : recursionLimit ≤ nesting c.details.json) :
    ∃ err, decodeRow row = .error err := by
  obtain ⟨err, hread⟩ := LawfulReader.refuses (decode_writeValue (encode_eq h).2.1) hn
  exact ⟨jsonError err, by simp [decodeRow, amounts_read h, hread, Except.mapError, bind,
    Except.bind]⟩

theorem events_append (h : events 0 t = .ok es) {id : ℕ} (ha : append c t = (.ok id, t'))
    (hn : nesting c.details.json < recursionLimit) : events 0 t' = .ok (es ++ [⟨id, c⟩]) := by
  rcases append_cases c t with ⟨row, hrow, -, heq⟩ | ⟨-, err, faults, heq⟩
  · obtain ⟨hid, rfl⟩ := Prod.ext_iff.mp (heq.symm.trans ha)
    obtain rfl : t.rows.length + 1 = id := Except.ok.inj hid
    rw [events_zero] at h ⊢
    rw [List.zipIdx_append, decodeRows_append, h]
    simp [decodeRows, decodeRow_encode hrow hn, bind, Except.bind, pure, Except.pure,
      Nat.add_comm 1]
  · simp [heq] at ha

/-- A row with details nested too deep is acknowledged and fails the reads from then on. -/
theorem events_append_deep {id : ℕ} (ha : append c t = (.ok id, t'))
    (hn : recursionLimit ≤ nesting c.details.json) : ∃ err, events 0 t' = .error err := by
  rcases append_cases c t with ⟨row, hrow, -, heq⟩ | ⟨-, err, faults, heq⟩
  · obtain ⟨-, rfl⟩ := Prod.ext_iff.mp (heq.symm.trans ha)
    obtain ⟨err, hdeep⟩ := decodeRow_deep hrow hn
    rw [events_zero, List.zipIdx_append, decodeRows_append]
    cases hes : decodeRows (t.rows.zipIdx 1) with
    | error err' => exact ⟨err', rfl⟩
    | ok es => exact ⟨err, by simp [decodeRows, hdeep, bind, Except.bind]⟩
  · simp [heq] at ha

theorem deep_append_unreadable (hf : checkFields c = .ok ()) (hi : Integral c.details.json)
    (hn : recursionLimit ≤ nesting c.details.json) : ∃ id t', append c ⟨[], []⟩ = (.ok id, t') ∧
      ∃ err, events 0 t' = .error err := by
  obtain ⟨id, hid⟩ : ∃ id, (append c ⟨[], []⟩).1 = .ok id := append_ok_iff.mpr ⟨hf, hi, rfl⟩
  have ha : append c ⟨[], []⟩ = (.ok id, (append c ⟨[], []⟩).2) := Prod.ext hid rfl
  exact ⟨id, _, ha, events_append_deep ha hn⟩

/-- Over a run of appends: the events read are the old ones and the acknowledged ones. -/
theorem events_appendAll (cs : List Call) (h : events 0 t = .ok es)
    (hn : ∀ c ∈ cs, nesting c.details.json < recursionLimit) :
    events 0 (appendAll cs t).2 = .ok (es ++ (appendAll cs t).1) := by
  induction cs generalizing t es with
  | nil => simpa [appendAll] using h
  | cons c cs ih =>
    have hrest := fun c' hc' => hn c' (List.mem_cons_of_mem c hc')
    cases ha : append c t with
    | mk r t' =>
      cases r with
      | error err =>
        have hsame : events 0 t' = .ok es := by
          rcases append_cases c t with ⟨row, -, -, heq⟩ | ⟨-, err', faults, heq⟩
          · simp [heq] at ha
          · obtain ⟨-, rfl⟩ := Prod.ext_iff.mp (heq.symm.trans ha)
            rwa [events_zero] at h ⊢
        simp only [appendAll, ha]
        exact ih hsame hrest
      | ok id =>
        have hstep := events_append h ha (hn c List.mem_cons_self)
        simp only [appendAll, ha]
        rw [ih hstep hrest, List.append_assoc]
        rfl

/-- JSON texts of the ledger: printable, read back exactly, the budget rail's as well; and every
acknowledged append is read back, where no details nest up to the reader's limit. -/
theorem ledger_json_round_trips :
    (∀ v : Value, Integral v.json → ∃ text, pythonDumpsDefault v.json = .ok text ∧
      pythonDumpsSorted v.json = .ok text ∧ AllPrintable text.toList ∧
        decode text = some v.json) ∧
    (∀ v : Value, (∃ err, pythonDumpsDefault v.json = .error err) ↔ ¬Integral v.json) ∧
    (∀ (c : Call) (t : EventTable), (∃ id, (append c t).1 = .ok id) ↔
      checkFields c = .ok () ∧ Integral c.details.json ∧ t.faults.head?.join = none) ∧
    ∀ (t : EventTable) (old : List Event) (calls : List Call), events 0 t = .ok old →
      (∀ c ∈ calls, nesting c.details.json < recursionLimit) →
        events 0 (appendAll calls t).2 = .ok (old ++ (appendAll calls t).1) := by
  refine ⟨?_, fun v => pythonDumpsDefault_fails_iff, fun c t => append_ok_iff,
    fun t old calls h hn => events_appendAll calls h hn⟩
  intro v hv
  obtain ⟨text, hw⟩ := writeValue_of_integral hv
  exact ⟨text, pythonDumpsDefault_ok_iff.mpr hw, pythonDumpsSorted_ok_iff.mpr hw,
    printable_writeValue v.json hw, decode_writeValue hw⟩

end Rows

section BoundedReader

/-- A reader of the grammar with the limit, for runs on texts that an append wrote. -/
def boundedFromStr (text : String) : Except String Value :=
  match decode text with
  | none => .error "expected value"
  | some j =>
    if h : wellFormed j = true then
      if nesting j < recursionLimit then .ok ⟨j, h⟩ else .error "recursion limit exceeded"
    else .error "number out of range"

def boundedAmounts (text : String) : Except String I64Map :=
  match decode text with
  | some (.obj members) =>
    match memberAmounts members with
    | some m => .ok m
    | none => .error "invalid type"
  | _ => .error "expected a map"

@[reducible] def boundedReader : SerdeReader := ⟨boundedFromStr, boundedAmounts⟩

theorem boundedReader_lawful : @LawfulReader boundedReader := by
  refine @LawfulReader.mk boundedReader ?_ ?_ ?_
  · intro text v h _ hn
    show boundedFromStr text = .ok v
    simp [boundedFromStr, h, v.valid, hn]
  · intro text v h hn
    refine ⟨"recursion limit exceeded", ?_⟩
    show boundedFromStr text = .error _
    simp [boundedFromStr, h, v.valid, Nat.not_lt.mpr hn]
  · intro text members m h hm
    show boundedAmounts text = .ok m
    simp [boundedAmounts, h, hm]

def nested : ℕ → Json
  | 0 => .arr []
  | n + 1 => .arr [nested n]

theorem wellFormed_nested (n : ℕ) : wellFormed (nested n) = true := by
  induction n with
  | zero => rfl
  | succ n ih => simp [nested, wellFormed, wellFormedItems, ih]

theorem integral_nested (n : ℕ) : Integral (nested n) := by
  induction n with
  | zero => trivial
  | succ n ih => exact ⟨ih, trivial⟩

theorem nesting_nested (n : ℕ) : nesting (nested n) = n + 1 := by
  induction n with
  | zero => rfl
  | succ n ih => simp [nested, nesting, nestingItems, ih]

def detailsCall (v : Value) : Call :=
  ⟨.budgetReserved, "intent", "key", "cycle", 1783962518,
    Std.ExtTreeMap.ofList [("reserved_msat", (400000 : Int64))], v⟩

def nestedCall (n : ℕ) : Call := detailsCall ⟨nested n, wellFormed_nested n⟩

/-- An acknowledged append whose row the reader refuses: 128 arrays within each other. -/
theorem nested_details_unreadable : ∃ id t', append (nestedCall 127) ⟨[], []⟩ = (.ok id, t') ∧
    ∃ err, @events boundedReader 0 t' = .error err := by
  have hdeep : recursionLimit ≤ nesting (nestedCall 127).details.json :=
    (nesting_nested 127).symm ▸ by decide
  exact @deep_append_unreadable (nestedCall 127) boundedReader boundedReader_lawful rfl
    (integral_nested 127) hdeep

def accentCall : Call :=
  detailsCall ⟨.obj [("a", .str "h\u00e9llo"), ("b", .arr [.int (-5), .str "\x7f"])], by decide⟩

theorem accent_details_read :
    @events boundedReader 0 (appendAll [accentCall] ⟨[], []⟩).2 = .ok [⟨1, accentCall⟩] := by
  have hn : ∀ c ∈ [accentCall], nesting c.details.json < recursionLimit := by
    simp [accentCall, detailsCall, nesting, nestingMembers, nestingItems, recursionLimit]
  have hread := (@ledger_json_round_trips boundedReader boundedReader_lawful).2.2.2 ⟨[], []⟩ []
    [accentCall] rfl hn
  obtain ⟨row, hrow⟩ : ∃ row, encode accentCall = .ok row :=
    encode_ok_iff.mpr ⟨rfl, by simp [accentCall, detailsCall, Integral, IntegralMembers,
      IntegralItems]⟩
  have hacks : (appendAll [accentCall] ⟨[], []⟩).1 = [⟨1, accentCall⟩] := by
    simp [appendAll, append, hrow]
  rw [hread, hacks]
  rfl

end BoundedReader

section Replay

def Call.toLedger (c : Call) : LedgerEvent :=
  ⟨c.eventType, c.intentId, c.idempotencyKey, c.cycleId, c.atTime,
    c.amounts.map fun _ v => v.toInt, c.details.json⟩

/-- The table reads as the ledger's events, and both meet the same storage failures. -/
structure Mirrors [SerdeReader] (t : EventTable) (l : Ledger) : Prop where
  faults : t.faults = l.faults
  length : t.rows.length = l.events.length
  reads : ∃ es, events 0 t = .ok es ∧ l.events = es.map fun e => e.content.toLedger

theorem encode_check (c : Call) :
    (∃ row, encode c = .ok row ∧ checkEvent c.toLedger = .ok ()) ∨
      ∃ err, encode c = .error err ∧ checkEvent c.toLedger = .error err := by
  obtain ⟨amountsJson, ha⟩ := writeValue_of_integral (integral_amountsValue c.amounts)
  have hcheck : checkEvent c.toLedger = (checkFields c >>= fun _ =>
      (pythonDumpsDefault c.details.json).map fun _ => ()) := by
    unfold checkEvent checkFields Call.toLedger pythonDumpsDefault
    cases c.eventType
    case other text => rfl
    all_goals
      by_cases hids : c.intentId = "" ∨ c.idempotencyKey = "" ∨ c.cycleId = ""
      · simp only [hids, if_true]
        rfl
      · by_cases hat : c.atTime < 0
        · simp only [hids, hat, if_true, if_false]
          rfl
        · simp only [hids, hat, if_false]
          cases writeValue c.details.json <;> rfl
  rw [hcheck]
  unfold encode
  rw [pythonDumpsDefault_ok_iff.mpr ha]
  cases checkFields c with
  | error err => exact Or.inr ⟨err, rfl, rfl⟩
  | ok u =>
    cases pythonDumpsDefault c.details.json with
    | error err => exact Or.inr ⟨err, rfl, rfl⟩
    | ok detailsJson => exact Or.inl ⟨_, rfl, rfl⟩

theorem append_mirrors [SerdeReader] [LawfulReader] {c : Call} {t : EventTable} {l : Ledger}
    (h : Mirrors t l) (hn : nesting c.details.json < recursionLimit) :
    (append c t).1 = (EconLedger.append c.toLedger l).1 ∧
      Mirrors (append c t).2 (EconLedger.append c.toLedger l).2 := by
  obtain ⟨es, hes, hl⟩ := h.reads
  unfold append EconLedger.append
  rcases encode_check c with ⟨row, hrow, hcheck⟩ | ⟨err, herr, hcheck⟩
  · rw [hrow, hcheck, h.faults]
    cases hf : l.faults.head?.join with
    | some err => exact ⟨rfl, ⟨rfl, h.length, es, by rwa [events_zero] at hes ⊢, hl⟩⟩
    | none =>
      have happ : append c t = (.ok (t.rows.length + 1), ⟨t.rows ++ [row], l.faults.tail⟩) := by
        simp [append, hrow, h.faults, hf]
      have hread := events_append hes happ hn
      exact ⟨by rw [h.length], ⟨rfl, by simp [h.length], _, hread, by simp [hl]⟩⟩
  · rw [herr, hcheck]
    exact ⟨rfl, h⟩

def appendEach (cs : List Call) : StateM EventTable (List (EconResult ℕ)) := cs.mapM append

def recordEach (cs : List Call) : StateM Ledger (List (EconResult ℕ)) :=
  cs.mapM fun c => EconLedger.append c.toLedger

/-- Over any run the texts answer as the ledger does, and read as what it holds. -/
theorem appends_mirror [SerdeReader] [LawfulReader] {cs : List Call} {t : EventTable} {l : Ledger}
    (h : Mirrors t l) (hn : ∀ c ∈ cs, nesting c.details.json < recursionLimit) :
    (appendEach cs t).1 = (recordEach cs l).1 ∧
    Mirrors (appendEach cs t).2 (recordEach cs l).2 := by
  induction cs generalizing t l with
  | nil => exact ⟨rfl, h⟩
  | cons c cs ih =>
    obtain ⟨hanswer, hmirrors⟩ := append_mirrors h (hn c List.mem_cons_self)
    obtain ⟨hrest, hend⟩ := ih hmirrors fun d hd => hn d (List.mem_cons_of_mem c hd)
    unfold appendEach recordEach
    rw [List.mapM_cons, List.mapM_cons]
    exact ⟨congrArg₂ List.cons hanswer hrest, hend⟩

theorem accent_mirrors : @Mirrors boundedReader (appendEach [accentCall] ⟨[], []⟩).2
    (recordEach [accentCall] ⟨[], []⟩).2 := by
  have hempty : @Mirrors boundedReader ⟨[], []⟩ ⟨[], []⟩ :=
    @Mirrors.mk boundedReader _ _ rfl rfl ⟨[], rfl, rfl⟩
  refine (@appends_mirror boundedReader boundedReader_lawful _ _ _ hempty ?_).2
  simp [accentCall, detailsCall, nesting, nestingMembers, nestingItems, recursionLimit]

end Replay

end LedgerText

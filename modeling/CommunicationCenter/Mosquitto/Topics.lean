import CommunicationCenter.Libc.Text
import CommunicationCenter.Wildcard.Matching
import Mathlib.Data.List.Infix

open libc wildcard

namespace communication_center.mosquitto

/-- The results that the modelled functions return. -/
inductive mosq_err_t where
  | MOSQ_ERR_NO_SUBSCRIBERS
  | MOSQ_ERR_SUB_EXISTS
  | MOSQ_ERR_SUCCESS
  | MOSQ_ERR_NOMEM
  | MOSQ_ERR_PROTOCOL
  | MOSQ_ERR_INVAL
  | MOSQ_ERR_NO_CONN
  | MOSQ_ERR_NOT_FOUND
  | MOSQ_ERR_CONN_LOST
  | MOSQ_ERR_PAYLOAD_SIZE
  | MOSQ_ERR_ACL_DENIED
  | MOSQ_ERR_MALFORMED_UTF8
  | MOSQ_ERR_MALFORMED_PACKET
  | MOSQ_ERR_DUPLICATE_PROPERTY
  | MOSQ_ERR_QOS_NOT_SUPPORTED
  | MOSQ_ERR_OVERSIZE_PACKET
  | MOSQ_ERR_RETAIN_NOT_SUPPORTED
  | MOSQ_ERR_TOPIC_ALIAS_INVALID
  deriving DecidableEq

/-- The separator of the levels of a topic, `/`. -/
abbrev separator : UInt8 := 47

/-- The wildcards of a filter, `+` and `#`. -/
abbrev plus : UInt8 := 43

abbrev hash : UInt8 := 35

/-- What a topic outside of the application's hierarchy begins with, `$`. -/
abbrev dollar : UInt8 := 36

def TOPIC_HIERARCHY_LIMIT : Nat := 200

/-- The checks that follow both loops. -/
def topic_limits (len hier_count : Nat) : mosq_err_t :=
  if len > 65535 then .MOSQ_ERR_INVAL
  else if hier_count > TOPIC_HIERARCHY_LIMIT then .MOSQ_ERR_INVAL
  else .MOSQ_ERR_SUCCESS

def pub_topic_check_loop : Text → Nat → Nat → mosq_err_t
  | [], len, hier_count => topic_limits len hier_count
  | c :: str, len, hier_count =>
    if c = plus ∨ c = hash then .MOSQ_ERR_INVAL
    else pub_topic_check_loop str (len + 1) (if c = separator then hier_count + 1 else hier_count)

/-- A topic to publish on has no wildcards. -/
def mosquitto_pub_topic_check (str : Text) : mosq_err_t :=
  pub_topic_check_loop str 0 0

/-- `c` is the character before `str`, and NUL at the start. -/
def sub_topic_check_loop : UInt8 → Text → Nat → Nat → mosq_err_t
  | _, [], len, hier_count => topic_limits len hier_count
  | c, d :: str, len, hier_count =>
    if d = plus ∧ (c ≠ 0 ∧ c ≠ separator ∨ str ≠ [] ∧ str.head? ≠ some separator) then
      .MOSQ_ERR_INVAL
    else if d = hash ∧ (c ≠ 0 ∧ c ≠ separator ∨ str ≠ []) then .MOSQ_ERR_INVAL
    else sub_topic_check_loop d str (len + 1) (if d = separator then hier_count + 1 else hier_count)

/-- In a filter a wildcard stands alone on its level, and `#` at the end. -/
def mosquitto_sub_topic_check (str : Text) : mosq_err_t :=
  sub_topic_check_loop 0 str 0 0

/-- The number of levels, without the empty one before a leading separator. -/
def level_count (local_sub : Text) : Nat :=
  local_sub.tail.count separator + 1

/-- The levels of a topic or a filter. An empty level is put before those that do
not begin with `$`. -/
def split_topics (subtopic : Text) : List Text :=
  if subtopic.head? = some dollar then subtopic.splitOn separator
  else [] :: subtopic.splitOn separator

/-- The levels without those that name a shared subscription, and its group. -/
def sub_topic_tokenise (subtopic : Text) : Except mosq_err_t (List Text × Option Text) :=
  if subtopic = [] then .error .MOSQ_ERR_INVAL
  else if (split_topics subtopic).head? = some (ascii "$share") then
    if level_count subtopic < 3 ∨
        level_count subtopic = 3 ∧ (split_topics subtopic)[2]? = some [] then
      .error .MOSQ_ERR_PROTOCOL
    else .ok ([] :: (split_topics subtopic).drop 2, (split_topics subtopic)[1]?)
  else .ok (split_topics subtopic, none)

/-- The wildcards as levels of a filter. -/
def wildcards : Wildcards Text where
  single := [plus]
  multi := [hash]
  distinct := by decide

/-- Every wildcard follows a separator or the start, and is followed by a
separator or the end, and `#` by the end. -/
def WellPlaced : UInt8 → Text → Prop
  | _, [] => True
  | c, d :: str =>
    (d = plus → (c = 0 ∨ c = separator) ∧ (str = [] ∨ str.head? = some separator)) ∧
      (d = hash → (c = 0 ∨ c = separator) ∧ str = []) ∧ WellPlaced d str

/-- The limits are 65535 bytes and the number of levels, for filters and for topics. -/
theorem topic_limits_eq_success_iff (len hier_count : Nat) :
    topic_limits len hier_count = .MOSQ_ERR_SUCCESS ↔
      len ≤ 65535 ∧ hier_count ≤ TOPIC_HIERARCHY_LIMIT := by
  unfold topic_limits
  split
  · simp
    omega
  · split
    · simp
      omega
    · simp
      omega

/-- A topic passes if it has no wildcards and stays within the limits, counted from where the loop
starts. -/
theorem pub_topic_check_loop_iff (str : Text) (len hier_count : Nat) :
    pub_topic_check_loop str len hier_count = .MOSQ_ERR_SUCCESS ↔ plus ∉ str ∧ hash ∉ str ∧
      len + str.length ≤ 65535 ∧ hier_count + str.count separator ≤ TOPIC_HIERARCHY_LIMIT := by
  induction str generalizing len hier_count with
  | nil => simp [pub_topic_check_loop, topic_limits_eq_success_iff]
  | cons c str ih =>
    rw [pub_topic_check_loop]
    by_cases hwild : c = plus ∨ c = hash
    · rw [if_pos hwild]
      obtain rfl | rfl := hwild <;> simp
    · rw [if_neg hwild, ih]
      obtain ⟨hplus, hhash⟩ := not_or.mp hwild
      rw [List.length_cons, List.count_cons]
      by_cases hsep : c = separator
      · subst hsep
        simp only [if_true, beq_self_eq_true, List.mem_cons, not_or, Ne.symm hplus, Ne.symm hhash,
          not_false_eq_true, true_and]
        exact and_congr Iff.rfl (and_congr Iff.rfl (by omega))
      · simp only [hsep, if_false, beq_eq_false_iff_ne.mpr hsep, List.mem_cons, not_or,
          Ne.symm hplus, Ne.symm hhash, not_false_eq_true, true_and]
        exact and_congr Iff.rfl (and_congr Iff.rfl (by simp; omega))

/-- The topics that can be published on. -/
theorem mosquitto_pub_topic_check_iff (str : Text) :
    mosquitto_pub_topic_check str = .MOSQ_ERR_SUCCESS ↔ plus ∉ str ∧ hash ∉ str ∧
      str.length ≤ 65535 ∧ str.count separator ≤ TOPIC_HIERARCHY_LIMIT := by
  rw [mosquitto_pub_topic_check, pub_topic_check_loop_iff, Nat.zero_add, Nat.zero_add]

/-- A filter passes if its wildcards are in their places, with the character in front of it, and it
stays within the limits. -/
theorem sub_topic_check_loop_iff (c : UInt8) (str : Text) (len hier_count : Nat) :
    sub_topic_check_loop c str len hier_count = .MOSQ_ERR_SUCCESS ↔ WellPlaced c str ∧
      len + str.length ≤ 65535 ∧ hier_count + str.count separator ≤ TOPIC_HIERARCHY_LIMIT := by
  induction str generalizing c len hier_count with
  | nil => simp [sub_topic_check_loop, topic_limits_eq_success_iff, WellPlaced]
  | cons d str ih =>
    rw [sub_topic_check_loop, WellPlaced]
    by_cases hplus : d = plus ∧ (c ≠ 0 ∧ c ≠ separator ∨ str ≠ [] ∧ str.head? ≠ some separator)
    · rw [if_pos hplus]
      have hnot : ¬ (d = plus → (c = 0 ∨ c = separator) ∧ (str = [] ∨ str.head? = some separator)) := by
        tauto
      simp [hnot]
    · rw [if_neg hplus]
      by_cases hhash : d = hash ∧ (c ≠ 0 ∧ c ≠ separator ∨ str ≠ [])
      · rw [if_pos hhash]
        have hnot : ¬ (d = hash → (c = 0 ∨ c = separator) ∧ str = []) := by tauto
        simp [hnot]
      · have hplus' : d = plus → (c = 0 ∨ c = separator) ∧ (str = [] ∨ str.head? = some separator) := by
          tauto
        have hhash' : d = hash → (c = 0 ∨ c = separator) ∧ str = [] := by tauto
        rw [if_neg hhash, ih, List.length_cons, List.count_cons]
        by_cases hsep : d = separator
        · simp only [hsep, if_true, beq_self_eq_true]
          subst hsep
          constructor
          · rintro ⟨hplaced, hlen, hcount⟩
            exact ⟨⟨hplus', hhash', hplaced⟩, by omega, by omega⟩
          · rintro ⟨⟨-, -, hplaced⟩, hlen, hcount⟩
            exact ⟨hplaced, by omega, by omega⟩
        · simp only [hsep, if_false, beq_eq_false_iff_ne.mpr hsep]
          constructor
          · rintro ⟨hplaced, hlen, hcount⟩
            exact ⟨⟨hplus', hhash', hplaced⟩, by omega, by simpa using hcount⟩
          · rintro ⟨⟨-, -, hplaced⟩, hlen, hcount⟩
            exact ⟨hplaced, by omega, by simpa using hcount⟩

/-- The filters that can be subscribed to. -/
theorem mosquitto_sub_topic_check_iff (str : Text) :
    mosquitto_sub_topic_check str = .MOSQ_ERR_SUCCESS ↔ WellPlaced 0 str ∧
      str.length ≤ 65535 ∧ str.count separator ≤ TOPIC_HIERARCHY_LIMIT := by
  rw [mosquitto_sub_topic_check, sub_topic_check_loop_iff, Nat.zero_add, Nat.zero_add]

/-- Nothing follows a hash. -/
theorem WellPlaced.after_hash {before after : Text} {c : UInt8}
    (h : WellPlaced c (before ++ hash :: after)) : after = [] := by
  induction before generalizing c with
  | nil => exact (h.2.1 rfl).2
  | cons d before ih => exact ih h.2.2

/-- A level that is not the last one has a separator behind it in the text. -/
theorem exists_of_mem_dropLast_levels {level : Text} {levels : List Text}
    (h : level ∈ levels.dropLast) :
    ∃ before after, [separator].intercalate levels = before ++ level ++ separator :: after := by
  induction levels with
  | nil => cases h
  | cons first rest ih =>
    cases rest with
    | nil => cases h
    | cons second rest =>
      rw [List.intercalate_cons_cons]
      rw [List.dropLast_cons_cons] at h
      obtain rfl | hmem := List.mem_cons.mp h
      · exact ⟨[], [separator].intercalate (second :: rest), by simp⟩
      · obtain ⟨before, after, heq⟩ := ih hmem
        exact ⟨first ++ [separator] ++ before, after, by simp [heq]⟩

/-- A level is a part of the text, so that what no byte of the text is, no byte of a level is. -/
theorem exists_of_mem_levels {level : Text} {levels : List Text} (h : level ∈ levels) :
    ∃ before after, [separator].intercalate levels = before ++ level ++ after := by
  induction levels with
  | nil => cases h
  | cons first rest ih =>
    cases rest with
    | nil =>
      obtain rfl := List.mem_singleton.mp h
      exact ⟨[], [], by simp⟩
    | cons second rest =>
      rw [List.intercalate_cons_cons]
      obtain rfl | hmem := List.mem_cons.mp h
      · exact ⟨[], [separator] ++ [separator].intercalate (second :: rest), by simp⟩
      · obtain ⟨before, after, heq⟩ := ih hmem
        exact ⟨first ++ [separator] ++ before, after, by simp [heq]⟩

/-- A level is a part of the text. -/
theorem mem_of_mem_level {c : UInt8} {level text : Text} (hlevel : level ∈ text.splitOn separator)
    (hc : c ∈ level) : c ∈ text := by
  obtain ⟨before, after, heq⟩ := exists_of_mem_levels hlevel
  rw [List.intercalate_splitOn] at heq
  simp [heq, hc]

/-- In a filter, the level `#` is the last one. -/
theorem WellPlaced.hash_notMem {text : Text} (h : WellPlaced 0 text) :
    [hash] ∉ (text.splitOn separator).dropLast := by
  intro hmem
  obtain ⟨before, after, heq⟩ := exists_of_mem_dropLast_levels hmem
  rw [List.intercalate_splitOn, List.append_assoc] at heq
  rw [heq] at h
  exact absurd h.after_hash (by simp)

/-- A topic without wildcards has none among its levels. -/
theorem plain_levels {text : Text} (hplus : plus ∉ text) (hhash : hash ∉ text) :
    Plain wildcards (text.splitOn separator) :=
  ⟨fun hmem => hplus (mem_of_mem_level hmem List.mem_cons_self),
    fun hmem => hhash (mem_of_mem_level hmem List.mem_cons_self)⟩

end communication_center.mosquitto

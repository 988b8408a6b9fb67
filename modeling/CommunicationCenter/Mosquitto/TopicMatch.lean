import CommunicationCenter.Mosquitto.Topics
import Mathlib.Data.List.DropRight

open libc wildcard

namespace communication_center.mosquitto

def has_wildcard (topic : Text) : Bool :=
  topic.any fun c => c = plus || c = hash

/-- The loop over the filter. `previous` is the character before `sub`, and NUL
at the start. -/
def topic_matches_loop : UInt8 → Text → Text → Except mosq_err_t Bool
  | _, [], topic => if has_wildcard topic then .error .MOSQ_ERR_INVAL else .ok false
  | previous, c :: sub, topic =>
    if topic.head? = some plus ∨ topic.head? = some hash then .error .MOSQ_ERR_INVAL
    else if topic.head? ≠ some c then
      if c = plus then
        if previous ≠ 0 ∧ previous ≠ separator then .error .MOSQ_ERR_INVAL
        else if sub ≠ [] ∧ sub.head? ≠ some separator then .error .MOSQ_ERR_INVAL
        else if has_wildcard (topic.takeWhile (· ≠ separator)) then .error .MOSQ_ERR_INVAL
        else if topic.dropWhile (· ≠ separator) = [] ∧ sub = [] then .ok true
        else topic_matches_loop c sub (topic.dropWhile (· ≠ separator))
      else if c = hash then
        if previous ≠ 0 ∧ previous ≠ separator then .error .MOSQ_ERR_INVAL
        else if sub ≠ [] then .error .MOSQ_ERR_INVAL
        else if has_wildcard topic then .error .MOSQ_ERR_INVAL
        else .ok true
      -- foo/bar matches foo/+/#
      else if topic = [] ∧ previous = plus ∧ c = separator ∧ sub.head? = some hash then .ok true
      else if hash ∈ (c :: sub).dropLast then .error .MOSQ_ERR_INVAL
      else .ok false
    else
      -- foo matches foo/#
      if topic.tail = [] ∧ sub = [separator, hash] then .ok true
      else if sub = [] ∧ topic.tail = [] then .ok true
      else if topic.tail = [] ∧ sub = [plus] then
        if c ≠ separator then .error .MOSQ_ERR_INVAL else .ok true
      else topic_matches_loop c sub topic.tail

/-- Does a topic match a subscription? -/
def mosquitto_topic_matches_sub (sub topic : Text) : Except mosq_err_t Bool :=
  if sub = [] ∨ topic = [] then .error .MOSQ_ERR_INVAL
  else if sub.head? = some dollar ∧ topic.head? ≠ some dollar ∨
      topic.head? = some dollar ∧ sub.head? ≠ some dollar then .ok false
  else topic_matches_loop 0 sub topic

/-- The first level of a text, and those behind it. -/
def level (text : Text) : Text :=
  text.takeWhile (· ≠ separator)

def below (text : Text) : List Text :=
  match text.dropWhile (· ≠ separator) with
  | [] => []
  | _ :: rest => rest.splitOn separator

@[simp] theorem level_nil : level [] = [] := rfl

@[simp] theorem below_nil : below [] = [] := rfl

@[simp] theorem level_separator (text : Text) : level (separator :: text) = [] := by
  simp [level]

@[simp] theorem below_separator (text : Text) :
    below (separator :: text) = text.splitOn separator := by
  simp [below]

/-- A character that is no separator belongs to the first level. -/
theorem level_cons {c : UInt8} (h : c ≠ separator) (text : Text) :
    level (c :: text) = c :: level text := by
  simp [level, h]

/-- It leaves the levels below as they are. -/
theorem below_cons {c : UInt8} (h : c ≠ separator) (text : Text) :
    below (c :: text) = below text := by
  simp [below, h]

/-- The levels of a text are its first one and those below it. Without a separator there is one
level. -/
theorem splitOn_eq (text : Text) : text.splitOn separator = level text :: below text := by
  induction text with
  | nil => simp
  | cons c text ih =>
    rw [List.splitOn_cons_eq_if_modifyHead, ih]
    by_cases h : c = separator
    · subst h
      simp [ih]
    · rw [if_neg (by simpa using h), level_cons h, below_cons h, List.modifyHead_cons]

/-- Before the first separator the two texts are the same, and what follows it
matches. -/
def Agree (sub topic : Text) : Prop :=
  level sub = level topic ∧ Matches wildcards (below sub) (below topic)

/-- A level without wildcards matches itself only. So the first level of the filter has to be that
of the topic, and what is below has to match. -/
theorem matches_iff_agree {sub : Text} (hplus : sub.head? ≠ some plus)
    (hhash : sub.head? ≠ some hash) (topic : Text) :
    Matches wildcards (sub.splitOn separator) (topic.splitOn separator) ↔ Agree sub topic := by
  have hne (c : UInt8) (h : sub.head? ≠ some c) (hc : c ≠ separator) : level sub ≠ [c] := by
    cases sub with
    | nil => simp
    | cons d sub =>
      by_cases hd : d = separator
      · subst hd
        simp
      · rw [level_cons hd]
        intro heq
        exact h (congrArg some (List.cons.inj heq).1)
  have hsingle : level sub ≠ wildcards.single := hne plus hplus (by decide)
  have hmulti : level sub ≠ wildcards.multi := hne hash hhash (by decide)
  rw [splitOn_eq sub, splitOn_eq topic]
  simp [Matches, Agree, hsingle, hmulti]

/-- At the start of a level the rest of the filter matches the rest of the topic,
and inside of a level the two agree. -/
def Continues (previous : UInt8) (sub topic : Text) : Prop :=
  if previous = 0 ∨ previous = separator then
    Matches wildcards (sub.splitOn separator) (topic.splitOn separator)
  else Agree sub topic

/-- In front of a character that is no wildcard, the rest of the filter agrees with the rest of the
topic as texts of their own. -/
theorem continues_iff_agree {previous : UInt8} {sub : Text} (hplus : sub.head? ≠ some plus)
    (hhash : sub.head? ≠ some hash) (topic : Text) :
    Continues previous sub topic ↔ Agree sub topic := by
  unfold Continues
  split
  · exact matches_iff_agree hplus hhash topic
  · exact Iff.rfl

/-- A topic without the two characters has no wildcard. -/
theorem has_wildcard_eq_false {topic : Text} (hplus : plus ∉ topic) (hhash : hash ∉ topic) :
    has_wildcard topic = false := by
  apply List.any_eq_false.mpr
  intro c hc
  have hcplus : c ≠ plus := fun heq => hplus (heq ▸ hc)
  have hchash : c ≠ hash := fun heq => hhash (heq ▸ hc)
  simp [hcplus, hchash]

/-- Behind a character that both have, the texts agree if the rests do. The character is not a NUL.
-/
theorem agree_cons {c : UInt8} (hc : c ≠ 0) (sub topic : Text) :
    Agree (c :: sub) (c :: topic) ↔ Continues c sub topic := by
  unfold Agree Continues
  by_cases hsep : c = separator
  · subst hsep
    simp
  · rw [if_neg (by simp [hc, hsep]), level_cons hsep, level_cons hsep, below_cons hsep,
      below_cons hsep, List.cons.injEq]
    simp [Agree]

/-- Different characters before the ends of both texts keep them from agreeing. Wildcards are not
compared in this way. -/
theorem not_agree_cons {c d : UInt8} (h : d ≠ c) (sub topic : Text) :
    ¬ Agree (c :: sub) (d :: topic) := by
  rintro ⟨hlevel, -⟩
  by_cases hc : c = separator
  · subst hc
    rw [level_separator, level_cons h] at hlevel
    cases hlevel
  · by_cases hd : d = separator
    · subst hd
      rw [level_separator, level_cons hc] at hlevel
      cases hlevel
    · rw [level_cons hc, level_cons hd] at hlevel
      exact h (List.cons.inj hlevel).1.symm

/-- A filter goes on behind the end of the topic by `/#` only, which matches the parent level as
well. -/
theorem agree_nil_iff {c : UInt8} {sub : Text} :
    Agree (c :: sub) [] ↔ c :: sub = [separator, hash] := by
  have hmulti : wildcards.multi = [hash] := rfl
  unfold Agree
  by_cases hc : c = separator
  · subst hc
    rw [level_separator, below_separator, below_nil, splitOn_eq]
    simp only [level_nil, Matches, true_and, hmulti, List.cons.injEq]
    constructor
    · rintro ⟨hlevel, hbelow⟩
      have hjoin : [separator].intercalate (sub.splitOn separator) = sub :=
        List.intercalate_splitOn separator
      rw [splitOn_eq, hlevel, hbelow] at hjoin
      simpa using hjoin.symm
    · rintro rfl
      rw [level_cons (by decide), below_cons (by decide)]
      exact ⟨rfl, rfl⟩
  · rw [level_cons hc]
    simp [hc]

/-- At the end of a level, what is left of it is empty. -/
theorem level_of_head? {sub : Text} (h : sub = [] ∨ sub.head? = some separator) :
    level sub = [] := by
  cases sub with
  | nil => exact level_nil
  | cons c sub =>
    have hc : c = separator := by simpa using h
    rw [hc, level_separator]

/-- What comes at the end of a level is a separator, if anything. -/
theorem head?_ne_of_next {c : UInt8} {sub : Text} (h : sub = [] ∨ sub.head? = some separator)
    (hc : c ≠ separator) : sub.head? ≠ some c := by
  intro heq
  obtain rfl | hhead := h
  · cases heq
  · exact hc (Option.some.inj (heq.symm.trans hhead))

/-- Without the rest of its first level a text is empty or begins with a separator. -/
theorem head?_dropWhile (topic : Text) : topic.dropWhile (· ≠ separator) = [] ∨
    (topic.dropWhile (· ≠ separator)).head? = some separator := by
  have hhead := List.head?_dropWhile_not (· ≠ separator) topic
  cases hrest : topic.dropWhile (· ≠ separator) with
  | nil => exact Or.inl rfl
  | cons c rest =>
    rw [hrest, List.head?_cons] at hhead
    have hc : c = separator := by simpa using hhead
    exact Or.inr (congrArg some hc)

/-- That leaves the levels below as they are. -/
theorem below_dropWhile (topic : Text) :
    below (topic.dropWhile (· ≠ separator)) = below topic := by
  unfold below
  rw [List.dropWhile_idempotent]

/-- What is left of the topic behind its first level. -/
theorem agree_dropWhile {sub : Text} (hsub : sub = [] ∨ sub.head? = some separator)
    (topic : Text) : Agree sub (topic.dropWhile (· ≠ separator)) ↔
      Matches wildcards (below sub) (below topic) := by
  rw [Agree, level_of_head? hsub, level_of_head? (head?_dropWhile topic), below_dropWhile]
  simp

/-- A filter at the wildcard for one level goes on behind the level of the topic. The wildcard
fills its level, as the checks of a filter make sure. -/
theorem continues_plus_iff {previous : UInt8} {sub : Text}
    (hprevious : previous = 0 ∨ previous = separator)
    (hsub : sub = [] ∨ sub.head? = some separator) (topic : Text) :
    Continues previous (plus :: sub) topic ↔ Agree sub (topic.dropWhile (· ≠ separator)) := by
  have hsingle : wildcards.single = [plus] := rfl
  have hmulti : wildcards.multi = [hash] := rfl
  have hne : plus ≠ hash := by decide
  rw [agree_dropWhile hsub, Continues, if_pos hprevious, splitOn_eq, splitOn_eq topic,
    level_cons (by decide), below_cons (by decide), level_of_head? hsub]
  simp [Matches, hsingle, hmulti, hne]

/-- A filter at the wildcard for all that is left. -/
theorem continues_hash {previous : UInt8} (hprevious : previous = 0 ∨ previous = separator)
    (topic : Text) : Continues previous [hash] topic := by
  rw [Continues, if_pos hprevious, splitOn_eq topic]
  exact Or.inl ⟨rfl, rfl⟩

/-- At a plus the loop skips the rest of the topic's level, and is done if that was the last one of
both. The plus has to stand alone in its level, and the topic to have no wildcards. -/
theorem loop_plus {previous : UInt8} {sub topic : Text} (hplaced : WellPlaced previous (plus :: sub))
    (hplus : plus ∉ topic) (hhash : hash ∉ topic) :
    topic_matches_loop previous (plus :: sub) topic =
      if topic.dropWhile (· ≠ separator) = [] ∧ sub = [] then .ok true
      else topic_matches_loop plus sub (topic.dropWhile (· ≠ separator)) := by
  obtain ⟨hprevious, hnext⟩ := hplaced.1 rfl
  have hhead : ¬ (topic.head? = some plus ∨ topic.head? = some hash) := by
    rintro (h | h)
    · exact hplus (List.mem_of_head? h)
    · exact hhash (List.mem_of_head? h)
  have hsame : topic.head? ≠ some plus := fun h => hhead (Or.inl h)
  have hfirst : ¬ (previous ≠ 0 ∧ previous ≠ separator) := by tauto
  have hsecond : ¬ (sub ≠ [] ∧ sub.head? ≠ some separator) := by tauto
  have hlevelWild : ¬ has_wildcard (topic.takeWhile (· ≠ separator)) = true := by
    rw [has_wildcard_eq_false (fun h => hplus (List.takeWhile_subset _ h))
      fun h => hhash (List.takeWhile_subset _ h)]
    exact Bool.false_ne_true
  rw [topic_matches_loop, if_neg hhead, if_pos hsame, if_pos (rfl : plus = plus), if_neg hfirst,
    if_neg hsecond, if_neg hlevelWild]

/-- At a hash the loop is done: the filter matches whatever is left of the topic. -/
theorem loop_hash {previous : UInt8} {sub topic : Text} (hplaced : WellPlaced previous (hash :: sub))
    (hplus : plus ∉ topic) (hhash : hash ∉ topic) :
    topic_matches_loop previous (hash :: sub) topic = .ok true := by
  obtain ⟨hprevious, rfl⟩ := hplaced.2.1 rfl
  have hhead : ¬ (topic.head? = some plus ∨ topic.head? = some hash) := by
    rintro (h | h)
    · exact hplus (List.mem_of_head? h)
    · exact hhash (List.mem_of_head? h)
  have hsame : topic.head? ≠ some hash := fun h => hhead (Or.inr h)
  have hne : hash ≠ plus := by decide
  have hfirst : ¬ (previous ≠ 0 ∧ previous ≠ separator) := by tauto
  have hwild : ¬ has_wildcard topic = true := by
    rw [has_wildcard_eq_false hplus hhash]
    exact Bool.false_ne_true
  rw [topic_matches_loop, if_neg hhead, if_pos hsame, if_neg hne, if_pos (rfl : hash = hash),
    if_neg hfirst, if_neg (not_not_intro rfl), if_neg hwild]

/-- A hash can only be the last character of a filter that has passed the checks. -/
theorem WellPlaced.hash_notMem_dropLast {previous : UInt8} {sub : Text}
    (h : WellPlaced previous sub) : hash ∉ sub.dropLast := by
  induction sub generalizing previous with
  | nil => exact List.not_mem_nil
  | cons c sub ih =>
    cases sub with
    | nil => exact List.not_mem_nil
    | cons d sub =>
      rw [List.dropLast_cons_cons]
      rintro (_ | ⟨_, hmem⟩)
      · exact absurd (h.2.1 rfl).2 (List.cons_ne_nil _ _)
      · exact ih h.2.2 hmem

/-- The empty rest of a filter agrees with the empty rest of a topic. -/
theorem agree_nil_nil : Agree [] [] := ⟨rfl, rfl⟩

/-- The end of the filter, behind which the topic goes on: the two do not agree then. -/
theorem not_agree_nil {topic : Text} (h : topic ≠ []) : ¬ Agree [] topic := by
  rintro ⟨hlevel, hbelow⟩
  cases topic with
  | nil => exact h rfl
  | cons c topic =>
    by_cases hc : c = separator
    · subst hc
      rw [below_separator, splitOn_eq] at hbelow
      cases hbelow
    · rw [level_cons hc] at hlevel
      cases hlevel

/-- The filter and the topic go on with different characters: the loop is done with a result that
agrees with the levels. This is where a filter that ends in `/#` matches the topic above it. -/
theorem loop_ne {previous c : UInt8} {sub topic : Text} (hplaced : WellPlaced previous (c :: sub))
    (hcplus : c ≠ plus) (hchash : c ≠ hash) (hplus : plus ∉ topic) (hhash : hash ∉ topic)
    (hsame : topic.head? ≠ some c)
    (hparent : topic = [] → c :: sub = [separator, hash] → previous = plus) :
    ∃ result, topic_matches_loop previous (c :: sub) topic = .ok result ∧
      (result = true ↔ Agree (c :: sub) topic) := by
  have hhead : ¬ (topic.head? = some plus ∨ topic.head? = some hash) := by
    rintro (h | h)
    · exact hplus (List.mem_of_head? h)
    · exact hhash (List.mem_of_head? h)
  rw [topic_matches_loop, if_neg hhead, if_pos hsame, if_neg hcplus, if_neg hchash]
  by_cases hbehind : topic = [] ∧ previous = plus ∧ c = separator ∧ sub.head? = some hash
  · rw [if_pos hbehind]
    obtain ⟨rfl, -, rfl, hsubHash⟩ := hbehind
    obtain ⟨rest, rfl⟩ := List.head?_eq_some_iff.mp hsubHash
    obtain rfl := (hplaced.2.2.2.1 rfl).2
    exact ⟨true, rfl, iff_of_true rfl (agree_nil_iff.mpr rfl)⟩
  · rw [if_neg hbehind, if_neg hplaced.hash_notMem_dropLast]
    refine ⟨false, rfl, iff_of_false Bool.false_ne_true ?_⟩
    cases topic with
    | nil =>
      intro hagree
      have heq := agree_nil_iff.mp hagree
      obtain ⟨hc, hsub⟩ := List.cons.inj heq
      exact hbehind ⟨rfl, hparent rfl heq, hc, by rw [hsub]; rfl⟩
    | cons d topic =>
      apply not_agree_cons
      intro heq
      exact hsame (congrArg some heq)

/-- What is left of the filter and of the topic decides the result of the loop, with the last
character of the filter that was passed. The topic has no wildcards, the filter has them in their
places, and not both are at their ends. -/
theorem topic_matches_loop_spec {previous : UInt8} {sub topic : Text}
    (hsub : WellPlaced previous sub) (hnonzero : (0 : UInt8) ∉ sub) (hplus : plus ∉ topic)
    (hhash : hash ∉ topic) (hends : sub ≠ [] ∨ topic ≠ [])
    (hparent : topic = [] → sub = [separator, hash] → previous = plus) :
    ∃ result, topic_matches_loop previous sub topic = .ok result ∧
      (result = true ↔ Continues previous sub topic) := by
  induction sub generalizing previous topic with
  | nil =>
    have hne : topic ≠ [] := by simpa using hends
    rw [continues_iff_agree (by simp) (by simp), topic_matches_loop,
      has_wildcard_eq_false hplus hhash]
    exact ⟨false, rfl, iff_of_false Bool.false_ne_true (not_agree_nil hne)⟩
  | cons c sub ih =>
    have hsubNonzero : (0 : UInt8) ∉ sub := fun h => hnonzero (List.mem_cons_of_mem _ h)
    have hplusNe : plus ≠ separator := by decide
    have hhashNe : hash ≠ separator := by decide
    by_cases hcplus : c = plus
    · subst hcplus
      obtain ⟨hprevious, hnext⟩ := hsub.1 rfl
      rw [loop_plus hsub hplus hhash, continues_plus_iff hprevious hnext,
        ← @continues_iff_agree plus _ (head?_ne_of_next hnext hplusNe)
          (head?_ne_of_next hnext hhashNe)]
      by_cases hboth : topic.dropWhile (· ≠ separator) = [] ∧ sub = []
      · rw [if_pos hboth, hboth.1, hboth.2, continues_iff_agree (by simp) (by simp)]
        exact ⟨true, rfl, iff_of_true rfl agree_nil_nil⟩
      · rw [if_neg hboth]
        have hnotBoth : sub ≠ [] ∨ topic.dropWhile (· ≠ separator) ≠ [] := by tauto
        exact ih hsub.2.2 hsubNonzero (fun h => hplus (List.dropWhile_subset _ h))
          (fun h => hhash (List.dropWhile_subset _ h)) hnotBoth fun _ _ => rfl
    by_cases hchash : c = hash
    · subst hchash
      obtain ⟨hprevious, rfl⟩ := hsub.2.1 rfl
      exact ⟨true, loop_hash hsub hplus hhash, iff_of_true rfl (continues_hash hprevious topic)⟩
    rw [continues_iff_agree (by simpa using hcplus) (by simpa using hchash)]
    by_cases hsame : topic.head? = some c
    · -- both go on with the same character
      obtain ⟨topic, rfl⟩ := List.head?_eq_some_iff.mp hsame
      have hhead : ¬ ((c :: topic).head? = some plus ∨ (c :: topic).head? = some hash) := by
        simp [hcplus, hchash]
      have hc : c ≠ 0 := fun h => hnonzero (h ▸ List.mem_cons_self)
      rw [topic_matches_loop, if_neg hhead, if_neg (not_not_intro hsame), agree_cons hc,
        List.tail_cons]
      by_cases hbehind : topic = [] ∧ sub = [separator, hash]
      · rw [if_pos hbehind, hbehind.1, hbehind.2,
          continues_iff_agree (by simpa using hplusNe.symm) (by simpa using hhashNe.symm)]
        exact ⟨true, rfl, iff_of_true rfl (agree_nil_iff.mpr rfl)⟩
      rw [if_neg hbehind]
      by_cases hboth : sub = [] ∧ topic = []
      · rw [if_pos hboth, hboth.1, hboth.2, continues_iff_agree (by simp) (by simp)]
        exact ⟨true, rfl, iff_of_true rfl agree_nil_nil⟩
      rw [if_neg hboth]
      by_cases hlast : topic = [] ∧ sub = [plus]
      · -- a wildcard for the empty level at the end
        obtain ⟨rfl, rfl⟩ := hlast
        have hplaced := (hsub.2.2.1 rfl).1
        have hsep : c = separator := hplaced.resolve_left hc
        rw [if_pos ⟨rfl, rfl⟩, if_neg (not_not_intro hsep),
          continues_plus_iff hplaced (Or.inl rfl)]
        exact ⟨true, rfl, iff_of_true rfl agree_nil_nil⟩
      rw [if_neg hlast]
      apply ih hsub.2.2 hsubNonzero (fun h => hplus (List.mem_cons_of_mem _ h))
        (fun h => hhash (List.mem_cons_of_mem _ h)) (by tauto)
      intro htopic hsubEq
      exact absurd ⟨htopic, hsubEq⟩ hbehind
    · exact loop_ne hsub hcplus hchash hplus hhash hsame hparent

/-- The parts at which the trees keep filters and look for topics match as the levels of the texts
do, if both begin with a dollar or neither does. -/
theorem matches_split_topics_iff {sub topic : Text}
    (h : sub.head? = some dollar ↔ topic.head? = some dollar) :
    Matches wildcards (split_topics sub) (split_topics topic) ↔
      Matches wildcards (sub.splitOn separator) (topic.splitOn separator) := by
  unfold split_topics
  by_cases hdollar : sub.head? = some dollar
  · rw [if_pos hdollar, if_pos (h.mp hdollar)]
  · rw [if_neg hdollar, if_neg (mt h.mpr hdollar)]
    simp [Matches, wildcards]

/-- The first level of a text with a dollar in front begins with it. -/
theorem level_of_dollar {text : Text} (h : text.head? = some dollar) :
    ∃ rest, level text = dollar :: rest := by
  obtain ⟨rest, rfl⟩ := List.head?_eq_some_iff.mp h
  exact ⟨level rest, level_cons (by decide) rest⟩

/-- Topics that begin with `$` and the other ones do not mix, not even where a filter begins with a
wildcard. -/
theorem not_matches_split_topics {sub topic : Text}
    (h : ¬ (sub.head? = some dollar ↔ topic.head? = some dollar)) :
    ¬ Matches wildcards (split_topics sub) (split_topics topic) := by
  unfold split_topics
  rw [splitOn_eq sub, splitOn_eq topic]
  by_cases hdollar : sub.head? = some dollar
  · have htopic : topic.head? ≠ some dollar := fun htopic => h (iff_of_true hdollar htopic)
    obtain ⟨rest, hrest⟩ := level_of_dollar hdollar
    have hplus : dollar ≠ plus := by decide
    have hhash : dollar ≠ hash := by decide
    rw [if_pos hdollar, if_neg htopic, hrest]
    simp [Matches, wildcards, hplus, hhash]
  · have htopic : topic.head? = some dollar := by
      by_contra htopic
      exact h (iff_of_false hdollar htopic)
    obtain ⟨rest, hrest⟩ := level_of_dollar htopic
    rw [if_neg hdollar, if_pos htopic, hrest]
    simp [Matches, wildcards]

/-- The matcher, which goes through both texts character by character, agrees
with the matching of levels. -/
theorem mosquitto_topic_matches_sub_iff {sub topic : Text} (hsub : WellPlaced 0 sub)
    (hnonzero : (0 : UInt8) ∉ sub) (hplus : plus ∉ topic) (hhash : hash ∉ topic)
    (hsubNe : sub ≠ []) (htopicNe : topic ≠ []) :
    ∃ result, mosquitto_topic_matches_sub sub topic = .ok result ∧
      (result = true ↔ Matches wildcards (split_topics sub) (split_topics topic)) := by
  rw [mosquitto_topic_matches_sub, if_neg (by simp [hsubNe, htopicNe])]
  by_cases hdollar : sub.head? = some dollar ↔ topic.head? = some dollar
  · obtain ⟨result, hloop, hresult⟩ := topic_matches_loop_spec hsub hnonzero hplus hhash
      (Or.inl hsubNe) fun htopic => absurd htopic htopicNe
    rw [Continues, if_pos (Or.inl rfl)] at hresult
    rw [if_neg (by tauto), matches_split_topics_iff hdollar]
    exact ⟨result, hloop, hresult⟩
  · rw [if_pos (by tauto)]
    exact ⟨false, rfl, iff_of_false Bool.false_ne_true (not_matches_split_topics hdollar)⟩

end communication_center.mosquitto

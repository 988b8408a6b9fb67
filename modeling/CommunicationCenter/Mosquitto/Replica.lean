import CommunicationCenter.Mosquitto.Subscribe

open libc trie wildcard

namespace communication_center.mosquitto

/-- The last message on a topic that was handed to `db__message_insert` for a client. -/
def last_inserted (context topic : Text) (inserted : List (mosquitto_msg_store × delivery)) :
    Option mosquitto_msg_store :=
  ((inserted.filter fun message => message.2.context = context && message.1.topic = topic).getLast?).map
    Prod.fst

variable {context topic sub : Text} {inserted queued : List (mosquitto_msg_store × delivery)}
  {stored : mosquitto_msg_store} {client : subscriber} {subscription_options : UInt8}
  {identifier : UInt32} {now_real_s : Int} {db : mosquitto_db} {ops : List broker_op}

/-- The last message of two stretches is that of the second one, or of the first if the second has
none. -/
theorem last_inserted_append (first second : List (mosquitto_msg_store × delivery)) :
    last_inserted context topic (first ++ second) =
      (last_inserted context topic second).or (last_inserted context topic first) := by
  rw [last_inserted, List.filter_append, List.getLast?_append, Option.map_or]
  rfl

/-- Messages that bring nothing new on a topic but a given one leave this one the last, however
many they are. -/
theorem last_inserted_append_of_same (h : last_inserted context topic inserted = some stored)
    (hsame : ∀ message ∈ queued, message.2.context = context → message.1.topic = topic →
      message.1 = stored) :
    last_inserted context topic (inserted ++ queued) = some stored := by
  rw [last_inserted_append, h]
  cases hlast : last_inserted context topic queued with
  | none => rfl
  | some other =>
    obtain ⟨message, hmessage, rfl⟩ := Option.map_eq_some_iff.mp hlast
    have hmem := List.mem_filter.mp (List.mem_of_getLast? hmessage)
    obtain ⟨hcontext, htopic⟩ := Bool.and_eq_true_iff.mp hmem.2
    rw [hsame message hmem.1 (of_decide_eq_true hcontext) (of_decide_eq_true htopic)]
    rfl

/-- If a stretch has messages for the client on the topic, and all of them are one and the same,
then that is the last one. -/
theorem last_inserted_append_of_mem {message : mosquitto_msg_store × delivery} (hmem : message ∈ queued)
    (hcontext : message.2.context = context) (htopic : message.1.topic = topic)
    (hsame : ∀ message ∈ queued, message.2.context = context → message.1.topic = topic →
      message.1 = stored) :
    last_inserted context topic (inserted ++ queued) = some stored := by
  have hfiltered : message ∈ queued.filter fun message =>
      message.2.context = context && message.1.topic = topic :=
    List.mem_filter.mpr ⟨hmem, by simp [hcontext, htopic]⟩
  obtain ⟨last, hlast⟩ := Option.ne_none_iff_exists'.mp
    (mt List.getLast?_eq_none_iff.mp (List.ne_nil_of_mem hfiltered))
  have hin := List.mem_filter.mp (List.mem_of_getLast? hlast)
  obtain ⟨hlastContext, hlastTopic⟩ := Bool.and_eq_true_iff.mp hin.2
  rw [last_inserted_append, last_inserted, hlast, Option.map_some,
    hsame last hin.1 (of_decide_eq_true hlastContext) (of_decide_eq_true hlastTopic)]
  rfl

/-- The messages that are inserted for a new subscription are for its client, and are the last
ones of their topics. -/
theorem Retained.mem_queue {table : RetainedTable} {retains : List (Text × mosquitto_retainhier)}
    (h : Retained now_real_s table retains) (hsub : can_subscribe sub = true) {sub_qos : UInt8}
    {message : mosquitto_msg_store × delivery}
    (hmem : message ∈ (retain_queue context sub sub_qos identifier now_real_s retains).2) :
    message.2.context = context ∧ table message.1.topic = some message.1 := by
  rw [retain_queue] at hmem
  split at hmem
  · cases hmem
  · cases htokens : sub_topic_tokenise sub with
    | error rc =>
      rw [htokens] at hmem
      cases hmem
    | ok tokens =>
      obtain ⟨filter, sharename⟩ := tokens
      obtain ⟨hfilter, -⟩ := filter_of_tokenise htokens hsub
      rw [htokens] at hmem
      simp only at hmem
      cases hfind : find (filter.headD []) retains with
      | none =>
        rw [hfind] at hmem
        cases hmem
      | some retainhier =>
        rw [hfind] at hmem
        obtain ⟨stored, hstored, rfl⟩ := List.mem_map.mp hmem
        obtain ⟨⟨path, stored⟩, hin, rfl⟩ := List.mem_map.mp (List.mem_of_mem_filter hstored)
        have hentry := mem_of_find hfind
        obtain ⟨hne, hget, -⟩ := (mem_retain_search (h.rooted.distinct _ hentry) hfilter.last).mp hin
        refine ⟨rfl, (h.stored path stored ?_).2⟩
        have hhead : path.head? = some (filter.headD []) :=
          h.rooted.rooted _ hentry path (by rw [hget]; simp)
        obtain ⟨rest, rfl⟩ := List.head?_eq_some_iff.mp hhead
        rw [retained_node, List.headD_cons, root_of_find hfind]
        exact hget

/-- What is stored for a filter that is not shared is stored for no other one, as a filter can be
told from its parts. -/
theorem eq_of_csub_of {other : Text}
    (h : csub_of other = some ⟨split_topics sub, none⟩) : other = sub ∧ NotShared other := by
  rw [csub_of] at h
  split at h
  · rename_i topics sharename htokens
    split at h
    · obtain ⟨rfl, rfl⟩ := mosquitto_client_sub.mk.inj (Option.some.inj h)
      obtain ⟨htopics, -, hshared⟩ | ⟨-, hshare⟩ := sub_topic_tokenise_cases htokens
      · exact ⟨split_topics_injective htopics.symm, hshared⟩
      · rw [sub_topic_tokenise] at htokens
        split at htokens
        · cases htokens
        · split at htokens
          · cases htokens
          · rename_i hlevels
            -- a group without a name has one level alone
            have hgroup := (Prod.mk.inj (Except.ok.inj htokens)).2
            have hlength := List.getElem?_eq_none_iff.mp hgroup
            obtain ⟨rest, hsplit⟩ := List.head?_eq_some_iff.mp hshare
            obtain rfl : rest = [] := by
              rw [hsplit] at hlength
              simpa using hlength
            have hsame : other = ascii "$share" := split_topics_injective (hsplit.trans (by decide))
            exact absurd (by rw [hsame]; decide) hlevels
    · cases h
  · cases h

/-- What is answered to a client that adds a filter: it depends on whether the client had it
before, and on the protocol. -/
theorem fst_sub_add {subs : mosquitto_subs} (hsub : can_subscribe sub = true)
    (hshared : NotShared sub) (protocol : mosquitto_protocol) (qos options : UInt8) :
    (sub_add context protocol sub qos identifier options subs).1 = sub_add_result protocol
      (if (table_of subs context ⟨split_topics sub, none⟩).isSome then .MOSQ_ERR_SUB_EXISTS
        else .MOSQ_ERR_SUCCESS) := by
  have htokens := hshared.tokenise hsub
  obtain ⟨hfilter, hfits⟩ := filter_of_tokenise htokens hsub
  have hfirst : fits_hier ((split_topics sub).headD []) = true := by
    apply List.all_eq_true.mp hfits
    exact List.mem_of_mem_head? hfilter.head?_eq
  rw [sub_add, htokens]
  simp only [hfirst, hfits, Bool.not_true, Bool.false_eq_true, if_false]
  rw [sub_add_normal, snd_sub_add_leaf, table_of, leaves_at_none]
  simp only [has_leaf_iff]
  rfl

/-- An accepted subscription has the retain handling that its options say. Its other options may
have been changed by the check. -/
theorem read_of_check_subscription {asked : subscription}
    (h : check_subscription client sub subscription_options = .ok asked) :
    ∃ read, read_subscription_options client.protocol sub subscription_options = .ok read ∧
      asked.retain_handling = read.retain_handling := by
  rw [check_subscription] at h
  cases hread : read_subscription_options client.protocol sub subscription_options with
  | error rc =>
    rw [hread] at h
    cases h
  | ok read =>
    refine ⟨read, rfl, ?_⟩
    rw [hread] at h
    by_cases hqos : read.qos > 2
    · exact nomatch (if_pos hqos).symm.trans h
    · obtain rfl := Except.ok.inj ((if_neg hqos).symm.trans h)
      rfl

/-- The retain handling of a filter that is let through is the one of its two bits, and never the
reserved one. Only MQTT 5 has it. -/
theorem retain_handling_of_check {asked : subscription} (hfive : client.protocol = .mosq_p_mqtt5)
    (h : check_subscription client sub subscription_options = .ok asked) :
    asked.retain_handling = subscription_options &&& 0x30 ∧
      subscription_options &&& 0x30 ≠ 0x30 := by
  have hmask : subscription_options &&& 0xFC &&& 0x30 = subscription_options &&& 0x30 := by
    rw [UInt8.and_assoc]
    rfl
  obtain ⟨read, hread, hsame⟩ := read_of_check_subscription h
  rw [read_subscription_options, if_neg (not_not_intro hfive)] at hread
  simp only [hmask] at hread
  split at hread
  · cases hread
  · split at hread
    · cases hread
    · rename_i hreserved
      obtain rfl := Except.ok.inj hread
      exact ⟨hsame, fun heq => hreserved (Or.inl heq)⟩

/-- The retained messages are inserted for a filter that was not there, if they are asked for. -/
theorem sends_retained_of_new {asked : subscription}
    (hasked : check_subscription client sub subscription_options = .ok asked)
    (hnever : client.protocol = .mosq_p_mqtt5 →
      subscription_options &&& 0x30 ≠ MQTT_SUB_OPT_SEND_RETAIN_NEVER) :
    sends_retained client.protocol asked.retain_handling .MOSQ_ERR_SUCCESS = true := by
  have hcases : ∀ options : UInt8, options &&& 0x30 ≠ MQTT_SUB_OPT_SEND_RETAIN_NEVER →
      options &&& 0x30 ≠ 0x30 → options &&& 0x30 = MQTT_SUB_OPT_SEND_RETAIN_ALWAYS ∨
        options &&& 0x30 = MQTT_SUB_OPT_SEND_RETAIN_NEW := byte_cases (by decide +kernel)
  rw [sends_retained]
  by_cases hprotocol : client.protocol ≠ .mosq_p_mqtt5
  · rw [if_pos hprotocol]
    rfl
  · rw [if_neg hprotocol]
    have hfive := not_not.mp hprotocol
    obtain ⟨hhandling, hreserved⟩ := retain_handling_of_check hfive hasked
    rw [hhandling]
    obtain halways | hnew := hcases subscription_options (hnever hfive) hreserved
    · simp [halways]
    · simp [hnew]

/-- A message that is kept until the next one comes. -/
def Lasting (stored : mosquitto_msg_store) : Prop :=
  stored.retain = true ∧ stored.message_expiry_time = 0

instance (stored : mosquitto_msg_store) : Decidable (Lasting stored) :=
  inferInstanceAs (Decidable (_ ∧ _))

/-- A client that subscribes to a filter wants the retained messages. -/
def AsksRetained (context sub : Text) : broker_op → Prop
  | .subscribe client other subscription_options _ _ => client.id = context → other = sub →
      client.protocol = .mosq_p_mqtt5 →
        subscription_options &&& 0x30 ≠ MQTT_SUB_OPT_SEND_RETAIN_NEVER
  | _ => True

instance (context sub : Text) (op : broker_op) : Decidable (AsksRetained context sub op) :=
  match op with
  | .subscribe client other _ _ _ =>
    inferInstanceAs (Decidable (client.id = context → other = sub → _ → _))
  | .unsubscribe _ _ | .clean _ | .publish _ => .isTrue trivial

/-- The retained message was the last one that was inserted for a client with a subscription. -/
structure Follows (context sub topic : Text) (ops : List broker_op) (db : mosquitto_db)
    (inserted : List (mosquitto_msg_store × delivery)) : Prop where
  lasting : ∀ stored, last_retained ops topic = some stored → stored.message_expiry_time = 0
  current : ∀ leaf stored, table_of db.subs context ⟨split_topics sub, none⟩ = some leaf →
    leaf.no_local = false → last_retained ops topic = some stored →
      last_inserted context topic inserted = some stored

/-- At the start nothing is retained, and nobody has been handed anything. -/
theorem follows_open : Follows context sub topic [] db_open [] where
  lasting := nofun
  current := nofun

/-- The table after an operation is that of the operation on subscriptions that it contains, if it
contains one. -/
theorem Consistent.table_step (h : Consistent ops now_real_s db) (op : broker_op) :
    table_of (broker_step db op).1.subs = match sub_op_of op with
      | none => table_of db.subs
      | some op => (table_of db.subs).step op := by
  rw [subs_broker_step]
  cases sub_op_of op with
  | none => rfl
  | some changed => exact (h.subs.step changed).2

variable (hsub : can_subscribe sub = true) (hshared : NotShared sub)
  (hmatch : Matches wildcards (split_topics sub) (split_topics topic)) (hparent : ¬ IsParent sub topic)

include hmatch in
/-- A message on the topic is inserted for the client, and is the last one then, if the client has
a subscription that takes it. It may be inserted for other filters of the client too, which makes
no difference. -/
theorem Consistent.publish_inserts (h : Consistent ops now_real_s db) {leaf : mosquitto_subleaf}
    (hleaf : table_of db.subs context ⟨split_topics sub, none⟩ = some leaf)
    (hlocal : leaf.no_local = false) (hpublish : can_publish stored.topic = true)
    (htopic : stored.topic = topic) :
    last_inserted context topic (inserted ++ (broker_step db (.publish stored)).2) = some stored := by
  obtain ⟨normal, shared, hdeliveries, hrouted⟩ :=
    h.subs.routed (m := routed_of stored) rfl hpublish
  have hmatching : split_topics sub ∈ matching wildcards (split_topics stored.topic) := by
    apply (mem_matching_iff (tokenise_of_can_publish hpublish).2).mpr
    rw [htopic]
    exact ⟨split_topics_ne_nil sub, hmatch⟩
  have hkept : !is_local (routed_of stored) leaf := by simp [is_local, hlocal]
  have hmem : delivery_to leaf (routed_of stored) ∈
      normal.filter fun delivery => delivery.context = context := by
    rw [hrouted.normal]
    apply List.mem_filterMap.mpr
    refine ⟨split_topics sub, hmatching, ?_⟩
    rw [hleaf, Option.filter_some, if_pos hkept]
    rfl
  obtain ⟨hnormal, hcontext⟩ := List.mem_filter.mp hmem
  have hinserted : (broker_step db (.publish stored)).2 =
      (sub_messages_queue (routed_of stored) db.subs).2.deliveries.map
        fun delivery => (stored, delivery) := by
    rw [broker_step, if_pos hpublish]
  have hqueued : (stored, delivery_to leaf (routed_of stored)) ∈
      (sub_messages_queue (routed_of stored) db.subs).2.deliveries.map
        fun delivery => (stored, delivery) := by
    rw [hdeliveries]
    exact List.mem_map_of_mem (List.mem_append_left _ hnormal)
  rw [hinserted]
  apply last_inserted_append_of_mem hqueued (of_decide_eq_true hcontext) htopic
  intro message hmessage _ _
  obtain ⟨delivery, -, rfl⟩ := List.mem_map.mp hmessage
  rfl

/-- A subscription after an operation was there before, with the same choice about the client's own
messages, or the client has just asked for it. No other operation makes one. -/
theorem Consistent.leaf_step (h : Consistent ops now_real_s db) {op : broker_op}
    {leaf : mosquitto_subleaf}
    (hleaf : table_of (broker_step db op).1.subs context ⟨split_topics sub, none⟩ = some leaf) :
    (∃ old, table_of db.subs context ⟨split_topics sub, none⟩ = some old ∧
        old.no_local = leaf.no_local) ∨
      table_of db.subs context ⟨split_topics sub, none⟩ = none ∧
        ∃ client subscription_options identifier time asked,
          op = .subscribe client sub subscription_options identifier time ∧ client.id = context ∧
            check_subscription client sub subscription_options = .ok asked := by
  rw [h.table_step] at hleaf
  cases op with
  | subscribe client other subscription_options identifier time =>
    cases hasked : check_subscription client other subscription_options with
    | error rc =>
      rw [sub_op_of, hasked] at hleaf
      exact Or.inl ⟨leaf, hleaf, rfl⟩
    | ok asked =>
      rw [sub_op_of, hasked] at hleaf
      simp only [Subscriptions.step] at hleaf
      by_cases hown : context = client.id ∧ some ⟨split_topics sub, none⟩ = csub_of other
      · rw [if_pos hown, ← hown.1] at hleaf
        obtain rfl := Option.some.inj hleaf
        cases hold : table_of db.subs context ⟨split_topics sub, none⟩ with
        | some old => exact Or.inl ⟨old, rfl, rfl⟩
        | none =>
          obtain ⟨rfl, -⟩ := eq_of_csub_of hown.2.symm
          exact Or.inr ⟨rfl, client, subscription_options, identifier, time, asked, rfl,
            hown.1.symm, hasked⟩
      · rw [if_neg hown] at hleaf
        exact Or.inl ⟨leaf, hleaf, rfl⟩
  | unsubscribe other filter =>
    simp only [sub_op_of, Subscriptions.step] at hleaf
    split at hleaf
    · cases hleaf
    · exact Or.inl ⟨leaf, hleaf, rfl⟩
  | clean other =>
    simp only [sub_op_of, Subscriptions.step] at hleaf
    split at hleaf
    · cases hleaf
    · exact Or.inl ⟨leaf, hleaf, rfl⟩
  | publish other => exact Or.inl ⟨leaf, hleaf, rfl⟩

/-- What an operation other than a message on the topic brings on it, for anybody, is the retained
message. So nobody falls back behind it. -/
theorem Consistent.inserted_step (h : Consistent ops now_real_s db) {op : broker_op}
    (htime : ∀ time, broker_time op = some time → time = now_real_s)
    (hop : ∀ stored, op = .publish stored → stored.topic = topic →
      ¬ can_publish stored.topic = true) :
    ∀ message ∈ (broker_step db op).2, message.1.topic = topic →
      last_retained ops topic = some message.1 := by
  cases op with
  | subscribe client other subscription_options identifier time =>
    obtain rfl := htime time rfl
    intro message hmessage htopic
    by_cases hother : can_subscribe other = true
    · cases hasked : check_subscription client other subscription_options with
      | error rc =>
        rw [broker_step_refused hasked] at hmessage
        cases hmessage
      | ok asked =>
        rw [broker_step_subscribe hother hasked rfl rfl] at hmessage
        split at hmessage
        · rw [← htopic]
          exact (h.retained.mem_queue hother hmessage).2
        · cases hmessage
    · rw [broker_step, if_neg hother] at hmessage
      cases hmessage
  | unsubscribe other filter =>
    intro message hmessage
    exact absurd hmessage List.not_mem_nil
  | clean other =>
    intro message hmessage
    exact absurd hmessage List.not_mem_nil
  | publish other =>
    intro message hmessage htopic
    rw [broker_step] at hmessage
    split at hmessage
    · rename_i hpublish
      obtain ⟨delivery, -, rfl⟩ := List.mem_map.mp hmessage
      exact absurd hpublish (hop other rfl htopic)
    · cases hmessage

include hsub hshared hmatch hparent in
/-- A subscription that was not there brings the retained message, if there is one. It has to last,
and the client must not have asked for none. -/
theorem Consistent.subscribe_inserts (h : Consistent ops now_real_s db) {asked : subscription}
    (hasked : check_subscription client sub subscription_options = .ok asked)
    (hnever : client.protocol = .mosq_p_mqtt5 →
      subscription_options &&& 0x30 ≠ MQTT_SUB_OPT_SEND_RETAIN_NEVER)
    (hnew : table_of db.subs client.id ⟨split_topics sub, none⟩ = none)
    (hretained : last_retained ops topic = some stored) (hlasting : stored.message_expiry_time = 0) :
    last_inserted client.id topic (inserted ++ (broker_step db
      (.subscribe client sub subscription_options identifier now_real_s)).2) = some stored := by
  have hadded : (sub_add client.id client.protocol sub asked.qos identifier asked.options
      db.subs).1 = .MOSQ_ERR_SUCCESS := by
    rw [fst_sub_add hsub hshared, hnew]
    exact ite_self _
  obtain ⟨queued, hqueue, -, htable, hqueued⟩ := @Retained.queue _ _ _ h.retained client.id sub
    asked.qos (retained_identifier client.protocol identifier) hsub hshared
  obtain ⟨htopic, -⟩ := h.retained.topic topic stored hretained
  have hmem : stored ∈ queued := by
    apply (hqueued stored (by rwa [htopic])).mpr
    rw [htopic]
    exact ⟨hretained, by simp [retain_expired, hlasting], hmatch⟩
  have hinserted : (broker_step db
      (.subscribe client sub subscription_options identifier now_real_s)).2 =
      queued.map fun stored => (stored, retain_delivery client.id asked.qos
        (retained_identifier client.protocol identifier) stored) := by
    rw [broker_step_subscribe hsub hasked rfl rfl, hadded,
      if_pos ⟨Or.inl rfl, sends_retained_of_new hasked hnever⟩]
    exact hqueue
  rw [hinserted]
  have hqueued : (stored, retain_delivery client.id asked.qos
      (retained_identifier client.protocol identifier) stored) ∈ queued.map fun stored =>
        (stored, retain_delivery client.id asked.qos
          (retained_identifier client.protocol identifier) stored) := List.mem_map_of_mem hmem
  apply last_inserted_append_of_mem hqueued rfl htopic
  intro message hmessage _ hsame
  obtain ⟨other, hother, rfl⟩ := List.mem_map.mp hmessage
  have hin := htable other hother
  rw [hsame, hretained] at hin
  exact (Option.some.inj hin).symm

/-- Only messages on the topic change what is retained for it, and only where the topic may be
published on. -/
theorem last_retained_step {op : broker_op} (hop : ∀ stored, op = .publish stored →
    stored.topic = topic → ¬ can_publish stored.topic = true) :
    last_retained (ops ++ [op]) topic = last_retained ops topic := by
  rw [last_retained_snoc]
  cases op with
  | publish stored =>
    apply if_neg
    rintro ⟨hpublish, rfl⟩
    exact hop stored rfl rfl (Bool.and_eq_true_iff.mp hpublish).1
  | _ => rfl

include hsub hshared hmatch hparent in
/-- The step lemma: whatever the operation, a client that is subscribed has last been handed what
is retained now. The time goes on, messages on the topic are retained ones that last, and the
client asks for retained messages when it subscribes. -/
theorem Follows.step (h : Follows context sub topic ops db inserted)
    (hconsistent : Consistent ops now_real_s db) (op : broker_op)
    (htime : ∀ time, broker_time op = some time → time = now_real_s)
    (hlasting : ∀ stored, op = .publish stored → stored.topic = topic → Lasting stored)
    (hasks : AsksRetained context sub op) :
    Follows context sub topic (ops ++ [op]) (broker_step db op).1
      (inserted ++ (broker_step db op).2) := by
  by_cases hpublished : ∃ stored, op = .publish stored ∧ stored.topic = topic ∧
      can_publish stored.topic = true
  · obtain ⟨published, rfl, htopic, hpublish⟩ := hpublished
    obtain ⟨hretain, hexpiry⟩ := hlasting published rfl htopic
    have hlast : last_retained (ops ++ [.publish published]) topic =
        if published.payload ≠ [] then some published else none := by
      rw [last_retained_snoc]
      exact if_pos ⟨by rw [hpublish, hretain]; rfl, htopic.symm⟩
    have hstored (stored : mosquitto_msg_store)
        (heq : last_retained (ops ++ [.publish published]) topic = some stored) :
        stored = published := by
      rw [hlast] at heq
      split at heq
      · exact (Option.some.inj heq).symm
      · cases heq
    refine ⟨fun stored heq => ?_, fun leaf stored hleaf hlocal heq => ?_⟩
    · rw [hstored stored heq]
      exact hexpiry
    · rw [hstored stored heq]
      rw [hconsistent.table_step] at hleaf
      exact hconsistent.publish_inserts hmatch hleaf hlocal hpublish htopic
  · have hop (stored : mosquitto_msg_store) (heq : op = .publish stored)
        (htopic : stored.topic = topic) : ¬ can_publish stored.topic = true :=
      fun hpublish => hpublished ⟨stored, heq, htopic, hpublish⟩
    have hinserted := hconsistent.inserted_step htime hop
    refine ⟨fun stored heq => ?_, fun leaf stored hleaf hlocal heq => ?_⟩
    · rw [last_retained_step hop] at heq
      exact h.lasting stored heq
    · rw [last_retained_step hop] at heq
      obtain ⟨old, hold, hsame⟩ | ⟨hnew, client, subscription_options, identifier, time, asked, rfl,
        rfl, hasked⟩ := hconsistent.leaf_step hleaf
      · apply last_inserted_append_of_same (h.current old stored hold (hsame.trans hlocal) heq)
        intro message hmessage _ htopic
        exact Option.some.inj ((hinserted message hmessage htopic).symm.trans heq)
      · obtain rfl := htime time rfl
        exact hconsistent.subscribe_inserts hsub hshared hmatch hparent hasked (hasks rfl rfl) hnew heq
          (h.lasting stored heq)

include hsub hshared hmatch hparent in
/-- So it is after every history in which all operations are of this kind. -/
theorem follows_run (ops : List broker_op) (hordered : TimesInOrder ops now_real_s)
    (hlasting : ∀ stored ∈ ops.filterMap published_of, stored.topic = topic → Lasting stored)
    (hasks : ∀ op ∈ ops, AsksRetained context sub op) :
    Follows context sub topic ops (broker_run ops db_open).1 (broker_run ops db_open).2 := by
  induction ops using List.reverseRecOn generalizing now_real_s with
  | nil => exact follows_open
  | append_singleton ops op ih =>
    obtain ⟨time, hbefore, -, htime⟩ := hordered.before
    rw [List.filterMap_append] at hlasting
    obtain ⟨hlastingBefore, hlastingNow⟩ := List.forall_mem_append.mp hlasting
    obtain ⟨hasksBefore, hasksNow⟩ := List.forall_mem_append.mp hasks
    rw [broker_run_snoc]
    refine (ih hbefore hlastingBefore hasksBefore).step hsub hshared hmatch hparent
      (consistent_run ops hbefore) op htime ?_ (hasksNow op (List.mem_singleton_self op))
    rintro stored rfl
    exact hlastingNow stored (List.mem_singleton_self stored)

/-- What is retained was published by one of the operations, and is not changed by any. -/
theorem mem_of_last_retained (h : last_retained ops topic = some stored) :
    stored ∈ ops.filterMap published_of := by
  induction ops using List.reverseRecOn with
  | nil => cases h
  | append_singleton ops op ih =>
    rw [List.filterMap_append]
    rw [last_retained_snoc] at h
    cases op with
    | publish published =>
      simp only [RetainedTable.step] at h
      split at h
      · split at h
        · obtain rfl := Option.some.inj h
          exact List.mem_append_right _ (List.mem_singleton_self published)
        · cases h
      · exact List.mem_append_left _ (ih h)
    | _ => exact List.mem_append_left _ (ih h)

/-- Where all messages on a topic are kept, the last one is the retained one. They are published
with retain, do not expire and are not empty. -/
theorem last_retained_eq_getLast? (ops : List broker_op) (hpublish : can_publish topic = true)
    (hkept : ∀ stored ∈ ops.filterMap published_of, stored.topic = topic →
      Lasting stored ∧ stored.payload ≠ []) :
    last_retained ops topic =
      ((ops.filterMap published_of).filter fun stored => stored.topic = topic).getLast? := by
  induction ops using List.reverseRecOn with
  | nil => rfl
  | append_singleton ops op ih =>
    rw [List.filterMap_append] at hkept ⊢
    obtain ⟨hbefore, hlast⟩ := List.forall_mem_append.mp hkept
    rw [last_retained_snoc, List.filter_append]
    cases op with
    | publish published =>
      by_cases htopic : published.topic = topic
      · obtain ⟨⟨hretain, -⟩, hpayload⟩ := hlast published (List.mem_singleton_self published) htopic
        subst htopic
        have hpublished : (([broker_op.publish published].filterMap published_of).filter
            fun stored => stored.topic = published.topic) = [published] := by
          simp [published_of]
        rw [hpublished, List.getLast?_concat]
        have hstored : (can_publish published.topic && published.retain) = true := by
          rw [hpublish, hretain]
          rfl
        simp only [RetainedTable.step]
        rw [if_pos ⟨hstored, trivial⟩, if_pos hpayload]
      · have hnothing : (([broker_op.publish published].filterMap published_of).filter
            fun stored => stored.topic = topic) = [] := by
          simp [published_of, htopic]
        rw [hnothing, List.append_nil, ← ih hbefore]
        exact if_neg fun hboth => htopic hboth.2.symm
    | _ => exact (ih hbefore).trans (congrArg List.getLast? (List.append_nil _).symm)

/-- Nothing is inserted that was not published before, neither for a live message nor for a new
subscription. -/
theorem mem_of_inserted (ops : List broker_op) (hordered : TimesInOrder ops now_real_s)
    {message : mosquitto_msg_store × delivery} (hmem : message ∈ (broker_run ops db_open).2) :
    message.1 ∈ ops.filterMap published_of := by
  induction ops using List.reverseRecOn generalizing now_real_s with
  | nil => cases hmem
  | append_singleton ops op ih =>
    obtain ⟨time, hbefore, -, htime⟩ := hordered.before
    rw [broker_run_snoc] at hmem
    rw [List.filterMap_append]
    obtain hmem | hmem := List.mem_append.mp hmem
    · exact List.mem_append_left _ (ih hbefore hmem)
    · by_cases hop : ∃ published, op = .publish published
      · obtain ⟨published, rfl⟩ := hop
        rw [broker_step] at hmem
        split at hmem
        · obtain ⟨delivery, -, rfl⟩ := List.mem_map.mp hmem
          exact List.mem_append_right _ (List.mem_singleton_self published)
        · cases hmem
      · have hretained := (consistent_run ops hbefore).inserted_step htime
          (fun published heq _ => absurd ⟨published, heq⟩ hop) message hmem rfl
        exact List.mem_append_left _ (mem_of_last_retained hretained)

/-- Whenever a client subscribed, as long as it does, the last message on a topic that was
handed to `db__message_insert` for it is the retained one, after any operations in which time
does not go back. The messages on the topic are published with retain and do not expire, the
filter is not shared, the subscription takes the client's own messages, and a client of
version 5 does not refuse retained messages. Nothing is said about what `db__message_insert`
does then, which drops messages with QoS 0 for clients that are away and all that do not fit
into a full queue. -/
theorem last_inserted_broker_run (ops : List broker_op) (hordered : TimesInOrder ops now_real_s)
    (hsub : can_subscribe sub = true) (hshared : NotShared sub)
    (hmatch : Matches wildcards (split_topics sub) (split_topics topic))
    (hparent : ¬ IsParent sub topic)
    (hlasting : ∀ stored ∈ ops.filterMap published_of, stored.topic = topic → Lasting stored)
    (hasks : ∀ op ∈ ops, AsksRetained context sub op) {leaf : mosquitto_subleaf}
    (hleaf : subscriptions (ops.filterMap sub_op_of) context ⟨split_topics sub, none⟩ = some leaf)
    (hlocal : leaf.no_local = false) (hretained : last_retained ops topic = some stored) :
    last_inserted context topic (broker_run ops db_open).2 = some stored := by
  have hfollows := follows_run hsub hshared hmatch hparent ops hordered hlasting hasks
  rw [← (consistent_run ops hordered).table] at hleaf
  exact hfollows.current leaf stored hleaf hlocal hretained

private def window_published (payload : Text) : mosquitto_msg_store :=
  { source_id := ascii "publisher"
    topic := ascii "ESP32/window"
    payload := payload
    qos := 1
    retain := true
    message_expiry_time := 0 }

private def late_board : subscriber :=
  { id := ascii "board"
    protocol := .mosq_p_mqtt311
    max_qos := 2 }

-- The board misses the second message, and subscribes again.
private def late_board_ops : List broker_op :=
  [.publish (window_published (ascii "1")), .subscribe late_board (ascii "ESP32/+") 1 0 5,
    .unsubscribe (ascii "board") (ascii "ESP32/+"), .publish (window_published (ascii "0")),
    .subscribe late_board (ascii "ESP32/+") 1 0 9]

theorem last_inserted_broker_run_late_board :
    last_inserted (ascii "board") (ascii "ESP32/window") (broker_run late_board_ops db_open).2 =
      some (window_published (ascii "0")) :=
  have hordered : TimesInOrder late_board_ops 9 := by decide
  have hsub : can_subscribe (ascii "ESP32/+") = true := by decide
  have hparent : ¬ IsParent (ascii "ESP32/+") (ascii "ESP32/window") := by
    rintro ⟨name, key, hfilter, -⟩
    have hlength : (split_topics (ascii "ESP32/+")).length = 2 := congrArg List.length hfilter
    exact absurd hlength (by decide)
  have hleaf : subscriptions (late_board_ops.filterMap sub_op_of) (ascii "board")
      ⟨split_topics (ascii "ESP32/+"), none⟩ = some ⟨ascii "board", 1, 0, false, false⟩ := by decide
  last_inserted_broker_run late_board_ops hordered hsub (by decide) (by decide) hparent (by decide)
    (by decide) hleaf (by decide) (by decide)

end communication_center.mosquitto

import I40Aas.Broker.Topology

/-!
How far a message of an ingress gets. What comes in over https reaches the queues of the
skills only, and those that it is meant for unless there are dots in the wrong places; what
comes in over gRPC is published under the exchange's name and reaches no queue at all.
-/

namespace I40Aas.Broker

open I40Aas.Lib I40Aas.Interaction I40Aas.HttpsIngress

/-- The topic of the frame is one of the onboarding skills. A dot in the place of the dash of
the protocol is replaced, and one dot in the type. -/
def Onboarded (f : Frame) (role : Role) : Prop :=
  (f.semanticProtocol = "i40:registry-semanticProtocol/onboarding" ∨
      f.semanticProtocol = "i40:registry.semanticProtocol/onboarding") ∧
    role.name = "CentralAssetRepository" ∧ f.type.toList.count '.' ≤ 1

/-- The topic of the frame is one of the echo skill, whatever the role and the type are. -/
def Echoed (f : Frame) : Prop :=
  f.semanticProtocol = "i40:registry-semanticProtocol/echo" ∨
    ∃ rest, words f.semanticProtocol =
      ["i40:registry".toList, "semanticProtocol/echo".toList] ++ rest

/-- The skills that a frame is meant for: the echo skill by its protocol, the onboarding skills
by theirs and the configured role. The dots of a protocol are to be replaced. -/
def MeantFor (uuids : List String) (f : Frame) (role : Role) : Queue → Prop
  | .simpleSkillIn => dashed f.semanticProtocol.toList = "i40:registry-semanticProtocol/echo".toList
  | .onboarding uuid => uuid ∈ uuids ∧
      dashed f.semanticProtocol.toList = "i40:registry-semanticProtocol/onboarding".toList ∧
        role.name = "CentralAssetRepository"
  | _ => False

/-- Where the topic does without replacing any other dot: an onboarding skill waits for a type
of one word, and the echo skill for everything that begins with its protocol. -/
structure Unambiguous (uuids : List String) (f : Frame) (role : Role) : Prop where
  onboarding : ∀ uuid, MeantFor uuids f role (.onboarding uuid) → f.type.toList.count '.' ≤ 1
  echo : ∀ rest : String,
    f.semanticProtocol ≠ "i40:registry.semanticProtocol/echo." ++ rest

section Frame

variable {f : Frame} {receiver : ConversationMember} {role : Role} {key : String}

theorem words_topicName (hreceiver : f.receiver = some receiver)
    (hrole : receiver.role = some role) (hkey : topicName f = some key) :
    words key = "ingress".toList :: (words (noDots f.semanticProtocol) ++
      (words (noDots role.name) ++ words (noDots f.type))) := by
  have htopic : topicName f = some ("ingress" ++ "." ++ noDots f.semanticProtocol ++ "." ++
      noDots role.name ++ "." ++ noDots f.type) := by
    simp [topicName, hreceiver, hrole, BrokerInteractionTopic.new, BrokerInteractionTopic.getTopic]
  obtain rfl := Option.some.inj (htopic.symm.trans hkey)
  have hingress : words "ingress" = ["ingress".toList] := words_of_not_mem (by decide)
  rw [words_append, words_append, words_append, hingress]
  simp

theorem words_routingKey (hreceiver : f.receiver = some receiver)
    (hrole : receiver.role = some role) (hkey : routingKey CORE_INGRESS_EXCHANGE f = some key) :
    words key = "egress".toList ::
      (words f.semanticProtocol ++ (words role.name ++ words f.type)) := by
  have hrouting : routingKey CORE_INGRESS_EXCHANGE f = some (CORE_INGRESS_EXCHANGE ++ "." ++
      f.semanticProtocol ++ "." ++ role.name ++ "." ++ f.type) := by
    simp [routingKey, hreceiver, hrole]
  obtain rfl := Option.some.inj (hrouting.symm.trans hkey)
  have hegress : words CORE_INGRESS_EXCHANGE = ["egress".toList] := words_of_not_mem (by decide)
  rw [words_append, words_append, words_append, hegress]
  simp

end Frame

/-! ### The conditions -/

/-- Three texts are one word each. -/
theorem append_eq_three_iff {α : Type*} {as bs cs : List α} (has : as ≠ []) (hbs : bs ≠ [])
    (hcs : cs ≠ []) {x y z : α} :
    as ++ (bs ++ cs) = [x, y, z] ↔ as = [x] ∧ bs = [y] ∧ cs = [z] := by
  constructor
  · intro h
    have hlength := congrArg List.length h
    simp only [List.length_append, List.length_cons, List.length_nil] at hlength
    have hapos := List.length_pos_of_ne_nil has
    have hbpos := List.length_pos_of_ne_nil hbs
    have hcpos := List.length_pos_of_ne_nil hcs
    obtain ⟨a, rfl⟩ := List.length_eq_one_iff.mp (show as.length = 1 by omega)
    obtain ⟨b, rfl⟩ := List.length_eq_one_iff.mp (show bs.length = 1 by omega)
    obtain ⟨c, rfl⟩ := List.length_eq_one_iff.mp (show cs.length = 1 by omega)
    simpa using h
  · rintro ⟨rfl, rfl, rfl⟩
    rfl

/-- A text that has neither dots nor dashes comes from itself only. -/
theorem noDots_eq_plain_iff {str : String} {w : List Char} (hdash : '-' ∉ w) (hdot : '.' ∉ w) :
    (noDots str).toList = w ↔ str.toList = w := by
  constructor
  · intro h
    rcases noDots_cases str with ⟨-, heq⟩ | ⟨a, b, -, -, hdashed⟩
    · exact heq ▸ h
    · rw [h] at hdashed
      exact absurd (by rw [hdashed]; simp) hdash
  · intro h
    rw [noDots_of_not_mem (h ▸ hdot), h]

theorem not_mem_noDots_iff (str : String) :
    '.' ∉ (noDots str).toList ↔ str.toList.count '.' ≤ 1 := by
  rcases noDots_cases str with ⟨hno, heq⟩ | ⟨a, b, ha, hstr, hdashed⟩
  · rw [heq, List.count_eq_zero.mpr hno]
    exact ⟨fun _ => Nat.zero_le 1, fun _ => hno⟩
  · rw [hdashed, hstr, List.count_append, List.count_eq_zero.mpr ha, List.count_cons_self]
    have hb : '.' ∉ b ↔ b.count '.' = 0 := List.count_eq_zero.symm
    have hmem : '.' ∉ a ++ '-' :: b ↔ '.' ∉ b := by simp [ha]
    rw [hmem, hb]
    omega

theorem onboarded_iff (f : Frame) (role : Role) :
    (∃ w, words (noDots f.semanticProtocol) ++ (words (noDots role.name) ++ words (noDots f.type)) =
        ["i40:registry-semanticProtocol/onboarding".toList, "CentralAssetRepository".toList, w]) ↔
      Onboarded f role := by
  have hprotocol : words (noDots f.semanticProtocol) =
        ["i40:registry-semanticProtocol/onboarding".toList] ↔
      f.semanticProtocol = "i40:registry-semanticProtocol/onboarding" ∨
        f.semanticProtocol = "i40:registry.semanticProtocol/onboarding" := by
    have hdash : "i40:registry-semanticProtocol/onboarding".toList =
        "i40:registry".toList ++ '-' :: "semanticProtocol/onboarding".toList := by decide
    have hdot : "i40:registry.semanticProtocol/onboarding".toList =
        "i40:registry".toList ++ '.' :: "semanticProtocol/onboarding".toList := by decide
    rw [words_eq_singleton_iff, and_iff_left (by decide), ← String.toList_inj,
      ← String.toList_inj, hdash, hdot]
    exact noDots_eq_iff (by decide) (by decide) (by decide) (by decide)
  have hrole : words (noDots role.name) = ["CentralAssetRepository".toList] ↔
      role.name = "CentralAssetRepository" := by
    rw [words_eq_singleton_iff, and_iff_left (by decide),
      noDots_eq_plain_iff (by decide) (by decide), String.toList_inj]
  have htype : (∃ w, words (noDots f.type) = [w]) ↔ f.type.toList.count '.' ≤ 1 := by
    rw [← not_mem_noDots_iff]
    simp only [words_eq_singleton_iff, exists_eq_left']
  simp only [append_eq_three_iff (words_ne_nil _) (words_ne_nil _) (words_ne_nil _), hprotocol,
    hrole, exists_and_left, htype, Onboarded]

/-- The first word after `noDots` is the one of the echo skill. -/
theorem head_words_noDots_iff (str : String) :
    (words (noDots str)).head? = some "i40:registry-semanticProtocol/echo".toList ↔
      str = "i40:registry-semanticProtocol/echo" ∨
        ∃ rest, words str = ["i40:registry".toList, "semanticProtocol/echo".toList] ++ rest := by
  have hsplit : "i40:registry-semanticProtocol/echo".toList =
      "i40:registry".toList ++ '-' :: "semanticProtocol/echo".toList := by decide
  rcases noDots_cases str with ⟨hno, heq⟩ | ⟨a, b, ha, hstr, hdashed⟩
  · rw [heq, words_of_not_mem hno, List.head?_cons, Option.some.injEq, String.toList_inj]
    simp
  · have hwords : words str = a :: b.splitOn '.' := by
      rw [words, hstr, List.splitOn, List.splitOnP_append_cons_of_forall_mem _ _ (by rfl)]
      · rfl
      · intro c hc
        simpa using fun hdot : c = '.' => ha (hdot ▸ hc)
    obtain ⟨v, vs, hvs⟩ := List.exists_cons_of_ne_nil (List.splitOnP_ne_nil (· == '.') b)
    have hnoDots : words (noDots str) = (a ++ '-' :: v) :: vs := by
      have happend := splitOn_append (a := a ++ ['-']) (by simp [ha]) b
      rw [words, hdashed, ← List.singleton_append, ← List.append_assoc, happend, List.splitOn, hvs]
      simp
    have hne : str ≠ "i40:registry-semanticProtocol/echo" := by
      rintro rfl
      have hmem : '.' ∈ "i40:registry-semanticProtocol/echo".toList := by
        rw [hstr]
        simp
      exact absurd hmem (by decide)
    rw [hnoDots, hwords, List.splitOn, hvs, List.head?_cons, Option.some.injEq, hsplit, eq_comm,
      List.append_cons_inj_of_notMem (by decide) (by decide), or_iff_right hne]
    constructor
    · rintro ⟨rfl, -, rfl⟩
      exact ⟨vs, rfl⟩
    · rintro ⟨rest, hrest⟩
      obtain ⟨rfl, htail⟩ := List.cons.inj hrest
      exact ⟨rfl, rfl, (List.cons.inj htail).1.symm⟩

theorem echoed_iff (f : Frame) (more : List (List Char)) :
    (∃ rest, words (noDots f.semanticProtocol) ++ more =
        "i40:registry-semanticProtocol/echo".toList :: rest) ↔ Echoed f := by
  rw [Echoed, ← head_words_noDots_iff]
  obtain ⟨v, vs, hvs⟩ := List.exists_cons_of_ne_nil (words_ne_nil (noDots f.semanticProtocol))
  rw [hvs]
  simp

/-! ### What is meant -/

theorem dashed_eq_iff {w a b : List Char} (ha : '-' ∉ a) (hb : '-' ∉ b) (hadot : '.' ∉ a)
    (hbdot : '.' ∉ b) :
    dashed w = a ++ '-' :: b ↔ w = a ++ '-' :: b ∨ w = a ++ '.' :: b := by
  have hself : ∀ v : List Char, '-' ∉ v → ∀ u, dashed u = v → u = v := by
    intro v hv u hu
    have hdot : '.' ∉ u := by
      intro hmem
      have hdash : '-' ∈ dashed u := List.mem_map.mpr ⟨'.', hmem, rfl⟩
      exact hv (hu ▸ hdash)
    rw [← hu, dashed_of_not_mem hdot]
  constructor
  · intro h
    obtain ⟨u, v, rfl, hu, hv⟩ := List.map_eq_append_iff.mp h
    obtain ⟨c, v, rfl, hc, hv⟩ := List.map_eq_cons_iff.mp hv
    obtain rfl := hself a ha u hu
    obtain rfl := hself b hb v hv
    by_cases hdot : c = '.'
    · exact .inr (by rw [hdot])
    · rw [if_neg hdot] at hc
      exact .inl (by rw [hc])
  · rintro (rfl | rfl)
    · exact dashed_of_not_mem (by simp [hadot, hbdot])
    · have hsplit : dashed (a ++ '.' :: b) = dashed a ++ '-' :: dashed b := by
        simp [dashed]
      rw [hsplit, dashed_of_not_mem hadot, dashed_of_not_mem hbdot]

theorem onboarded_iff_meantFor {uuids : List String} {uuid : String} (huuid : uuid ∈ uuids)
    (f : Frame) (role : Role) : Onboarded f role ↔
      MeantFor uuids f role (.onboarding uuid) ∧ f.type.toList.count '.' ≤ 1 := by
  have hdash : "i40:registry-semanticProtocol/onboarding".toList =
      "i40:registry".toList ++ '-' :: "semanticProtocol/onboarding".toList := by decide
  have hdot : "i40:registry.semanticProtocol/onboarding".toList =
      "i40:registry".toList ++ '.' :: "semanticProtocol/onboarding".toList := by decide
  rw [Onboarded, MeantFor, hdash, dashed_eq_iff (by decide) (by decide) (by decide) (by decide),
    ← hdash, ← hdot, String.toList_inj, String.toList_inj]
  simp [huuid, and_assoc]

theorem dashed_ne_of_append {protocol rest : String}
    (h : protocol = "i40:registry.semanticProtocol/echo." ++ rest) :
    dashed protocol.toList ≠ "i40:registry-semanticProtocol/echo".toList := by
  intro hdashed
  have hlength := congrArg List.length hdashed
  have hlong : "i40:registry-semanticProtocol/echo".toList.length <
      "i40:registry.semanticProtocol/echo.".toList.length := by decide
  rw [dashed, List.length_map, h, String.toList_append, List.length_append] at hlength
  omega

/-- The echo skill gets what is meant for it, and what goes on after its protocol with a dot. -/
theorem echoed_iff_meantFor (uuids : List String) (f : Frame) (role : Role) : Echoed f ↔
    MeantFor uuids f role .simpleSkillIn ∨
      ∃ rest : String, f.semanticProtocol = "i40:registry.semanticProtocol/echo." ++ rest := by
  have hdash : "i40:registry-semanticProtocol/echo".toList =
      "i40:registry".toList ++ '-' :: "semanticProtocol/echo".toList := by decide
  have hdot : "i40:registry.semanticProtocol/echo".toList =
      "i40:registry".toList ++ '.' :: "semanticProtocol/echo".toList := by decide
  rw [Echoed, MeantFor, hdash, dashed_eq_iff (by decide) (by decide) (by decide) (by decide),
    ← hdash, ← hdot, String.toList_inj, String.toList_inj, or_assoc]
  refine or_congr_right ?_
  have hwords : words "i40:registry.semanticProtocol/echo" =
      ["i40:registry".toList, "semanticProtocol/echo".toList] := by decide
  rw [← hwords]
  exact exists_words_append_iff

/-! ### The ingresses -/

section Ingress

variable {f : Frame} {receiver : ConversationMember} {role : Role} {key : String}
  {uuids : List String}

theorem mem_queuesOf_topicName_iff (hreceiver : f.receiver = some receiver)
    (hrole : receiver.role = some role) (hkey : topicName f = some key) {q : Queue} :
    q ∈ queuesOf uuids key ↔ q = .simpleSkillIn ∧ Echoed f ∨
      (∃ uuid ∈ uuids, q = .onboarding uuid) ∧ Onboarded f role := by
  have hwords := words_topicName hreceiver hrole hkey
  have hne : ∀ key', (words key').head? ≠ some "ingress".toList → key ≠ key' := by
    rintro key' hhead rfl
    rw [hwords] at hhead
    exact hhead rfl
  rw [mem_queuesOf_iff, hwords]
  simp only [hne "egress.generic" (by decide), hne "egress.http" (by decide),
    hne "egress.grpc" (by decide), and_false, false_or, List.cons_append, List.nil_append,
    List.cons.injEq, true_and, echoed_iff, onboarded_iff]

theorem queuesOf_routingKey (hreceiver : f.receiver = some receiver)
    (hrole : receiver.role = some role) (hkey : routingKey CORE_INGRESS_EXCHANGE f = some key) :
    queuesOf uuids key = [] := by
  refine List.eq_nil_iff_forall_not_mem.mpr fun q hq => ?_
  have hwords := words_routingKey hreceiver hrole hkey
  have hlength : 4 ≤ (words key).length := by
    have hprotocol := List.length_pos_of_ne_nil (words_ne_nil f.semanticProtocol)
    have hname := List.length_pos_of_ne_nil (words_ne_nil role.name)
    have htype := List.length_pos_of_ne_nil (words_ne_nil f.type)
    rw [hwords, List.length_cons, List.length_append, List.length_append]
    omega
  rcases mem_queuesOf_iff.mp hq with ⟨-, rfl⟩ | ⟨-, rfl⟩ | ⟨-, rfl⟩ | ⟨-, rest, hno⟩ | ⟨-, w, hno⟩
  · exact absurd hlength (by decide)
  · exact absurd hlength (by decide)
  · exact absurd hlength (by decide)
  · rw [hwords] at hno
    exact absurd (List.cons.inj hno).1 (by decide)
  · rw [hwords] at hno
    exact absurd (List.cons.inj hno).1 (by decide)

/-- A message of the https ingress reaches skills only, and exactly those that it is meant for if
and only if its topic is unambiguous. A message of the gRPC ingress reaches nobody. -/
theorem queues_of_ingress (hreceiver : f.receiver = some receiver)
    (hrole : receiver.role = some role) (uuids : List String) :
    (∃ key, topicName f = some key ∧
        (∀ q ∈ queuesOf uuids key, q = .simpleSkillIn ∨ ∃ uuid ∈ uuids, q = .onboarding uuid) ∧
        ((∀ q, q ∈ queuesOf uuids key ↔ MeantFor uuids f role q) ↔ Unambiguous uuids f role)) ∧
      ∃ key, routingKey CORE_INGRESS_EXCHANGE f = some key ∧ queuesOf uuids key = [] := by
  obtain ⟨topic, htopic⟩ : ∃ key, topicName f = some key := by simp [topicName, hreceiver, hrole]
  obtain ⟨key, hkey⟩ : ∃ key, routingKey CORE_INGRESS_EXCHANGE f = some key := by
    simp [routingKey, hreceiver, hrole]
  have hmem : ∀ q, q ∈ queuesOf uuids topic ↔ q = .simpleSkillIn ∧ Echoed f ∨
      (∃ uuid ∈ uuids, q = .onboarding uuid) ∧ Onboarded f role :=
    fun q => mem_queuesOf_topicName_iff hreceiver hrole htopic
  refine ⟨⟨topic, htopic, fun q hq => ?_, ?_⟩, key, hkey, queuesOf_routingKey hreceiver hrole hkey⟩
  · rcases (hmem q).mp hq with ⟨hecho, -⟩ | ⟨honboarding, -⟩
    · exact .inl hecho
    · exact .inr honboarding
  · constructor
    · intro h
      refine ⟨fun uuid hmeant => ?_, fun rest hrest => ?_⟩
      · rcases (hmem _).mp ((h _).mpr hmeant) with ⟨hq, -⟩ | ⟨-, honboarded⟩
        · cases hq
        · exact ((onboarded_iff_meantFor hmeant.1 f role).mp honboarded).2
      · have hechoed := (echoed_iff_meantFor uuids f role).mpr (.inr ⟨rest, hrest⟩)
        have hmeant : dashed f.semanticProtocol.toList = _ :=
          (h .simpleSkillIn).mp ((hmem _).mpr (.inl ⟨rfl, hechoed⟩))
        exact dashed_ne_of_append hrest hmeant
    · intro h q
      rw [hmem]
      cases q with
      | simpleSkillIn =>
          rw [echoed_iff_meantFor uuids f role]
          simp [h.echo]
      | onboarding uuid =>
          by_cases huuid : uuid ∈ uuids
          · have hcount := h.onboarding uuid
            rw [onboarded_iff_meantFor huuid f role]
            simpa [huuid] using hcount
          · simp [MeantFor, huuid]
      | generic => simp [MeantFor]
      | http => simp [MeantFor]
      | grpc => simp [MeantFor]

end Ingress

/-- A message for the central asset repository reaches the queue of its skill over https. -/
theorem queues_of_ingress_central :
    (∃ key, topicName (frameTo "CentralAssetRepository") = some key ∧
      ∀ q, q ∈ queuesOf ["uuid"] key ↔ q = .onboarding "uuid") ∧
    ∃ key, routingKey CORE_INGRESS_EXCHANGE (frameTo "CentralAssetRepository") = some key ∧
      queuesOf ["uuid"] key = [] := by
  have hunambiguous : Unambiguous ["uuid"] (frameTo "CentralAssetRepository")
      ⟨"CentralAssetRepository"⟩ := by
    refine ⟨fun _ _ => by decide, fun rest h => ?_⟩
    have hhead := congrArg (fun protocol => protocol.toList.take 13) h
    simp only [String.toList_append] at hhead
    rw [List.take_append_of_le_length (by decide)] at hhead
    exact absurd hhead (by decide)
  obtain ⟨⟨key, hkey, -, hreached⟩, hgrpc⟩ :=
    queues_of_ingress (f := frameTo "CentralAssetRepository") rfl rfl ["uuid"]
  refine ⟨⟨key, hkey, fun q => ?_⟩, hgrpc⟩
  rw [hreached.mpr hunambiguous q]
  cases q with
  | onboarding uuid =>
      have hprotocol : dashed (frameTo "CentralAssetRepository").semanticProtocol.toList =
        "i40:registry-semanticProtocol/onboarding".toList := by decide
      simp [MeantFor, hprotocol]
  | simpleSkillIn => exact iff_of_false (by rw [MeantFor]; decide) nofun
  | generic => exact iff_of_false id nofun
  | http => exact iff_of_false id nofun
  | grpc => exact iff_of_false id nofun

end I40Aas.Broker

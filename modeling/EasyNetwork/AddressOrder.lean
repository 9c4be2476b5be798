/-
  The order in which the addresses are tried (`_prioritize_ipv6_over_ipv4` and
  `_interleave_addrinfos` in `lowlevel/api_async/backend/_common/dns_resolver.py`).

  `interleaveAddrinfos_eq`: of two families, the one of the first address comes first, and then they
  alternate.  `addressOrder_spec`: after the priority this is IPv6, if there is an IPv6 address.
-/
import EasyNetwork.HappyEyeballs
import Mathlib.Data.List.Perm.Basic

namespace EasyNetwork

namespace HappyEyeballs

/-! ## Taking turns -/

section
variable {β : Type}

/-- Two lists that take turns, until one of them is exhausted. -/
def alternate : List β → List β → List β
  | [], bs => bs
  | a :: as, bs => a :: alternate bs as
  termination_by as bs => as.length + bs.length

variable {as bs : List β}

theorem alternate_nil_left (bs : List β) : alternate [] bs = bs := by rw [alternate]

theorem alternate_cons (a : β) (as bs : List β) :
    alternate (a :: as) bs = a :: alternate bs as := by
  rw [alternate]

theorem alternate_nil_right (as : List β) : alternate as [] = as := by
  cases as with
  | nil => exact alternate_nil_left []
  | cons a as => rw [alternate_cons, alternate_nil_left]

/-- **Turns**: if neighbours are of the same kind, nothing else is left. -/
theorem alternate_neighbours {γ : Type} {kind : β → γ} {F G : γ} (has : ∀ a ∈ as, kind a = F)
    (hbs : ∀ b ∈ bs, kind b = G) (hne : F ≠ G) {before after : List β} {a b : β}
    (h : alternate as bs = before ++ a :: b :: after) (hkind : kind a = kind b) :
    ∀ c ∈ after, kind c = kind a := by
  induction as, bs using alternate.induct generalizing F G before with
  | case1 bs =>
    rw [alternate_nil_left] at h
    intro c hc
    rw [hbs a (h ▸ List.mem_append_right _ List.mem_cons_self), hbs c ?_]
    rw [h]
    exact List.mem_append_right _ (List.mem_cons_of_mem _ (List.mem_cons_of_mem _ hc))
  | case2 a₀ as bs ih =>
    rw [alternate_cons] at h
    cases before with
    | cons x before =>
      have htail := (List.cons.inj h).2
      exact ih hbs (fun a ha => has a (List.mem_cons_of_mem _ ha)) hne.symm htail
    | nil =>
      obtain ⟨rfl, htail⟩ := List.cons.inj h
      cases bs with
      | nil =>
        rw [alternate_nil_left] at htail
        subst htail
        intro c hc
        rw [has a₀ List.mem_cons_self,
          has c (List.mem_cons_of_mem _ (List.mem_cons_of_mem _ hc))]
      | cons b₀ bs =>
        rw [alternate_cons] at htail
        obtain ⟨rfl, -⟩ := List.cons.inj htail
        rw [has a₀ List.mem_cons_self, hbs b₀ List.mem_cons_self] at hkind
        exact absurd hkind hne

end

variable {α : Type} {addr : AddrInfo α} {addrinfos reordered : List (AddrInfo α)}
  {groups : List (Family × List (AddrInfo α))}

/-! ## Nothing is lost -/

theorem perm_prioritizeLoop (v6Found v4Found : Bool) (reordered addrinfos : List (AddrInfo α)) :
    (prioritizeLoop v6Found v4Found reordered addrinfos).Perm (reordered ++ addrinfos) := by
  induction addrinfos generalizing v6Found v4Found reordered with
  | nil => rw [prioritizeLoop, List.append_nil]
  | cons addr addrinfos ih =>
    rw [prioritizeLoop]
    split_ifs
    · exact (ih _ _ _).trans List.perm_middle.symm
    · have hinsert : (reordered.take 1 ++ addr :: reordered.drop 1).Perm (addr :: reordered) := by
        nth_rewrite 3 [← List.take_append_drop 1 reordered]
        exact List.perm_middle
      exact (ih _ _ _).trans ((hinsert.append_right addrinfos).trans List.perm_middle.symm)
    · rw [List.append_cons reordered addr addrinfos]
      exact ih _ _ _

theorem perm_prioritizeIpv6OverIpv4 (addrinfos : List (AddrInfo α)) :
    (prioritizeIpv6OverIpv4 addrinfos).Perm addrinfos :=
  perm_prioritizeLoop false false [] addrinfos

/-- An address goes to one group. -/
theorem perm_insertByFamily (addr : AddrInfo α) (groups : List (Family × List (AddrInfo α))) :
    ((insertByFamily addr groups).map Prod.snd).flatten.Perm
      (addr :: (groups.map Prod.snd).flatten) := by
  induction groups with
  | nil => rfl
  | cons group groups ih =>
    obtain ⟨family, group⟩ := group
    rw [insertByFamily]
    split_ifs
    · rw [List.map_cons, List.flatten_cons, List.map_cons, List.flatten_cons, List.append_assoc]
      exact List.perm_middle
    · rw [List.map_cons, List.flatten_cons, List.map_cons, List.flatten_cons]
      exact (ih.append_left group).trans List.perm_middle

theorem perm_byFamily (addrinfos : List (AddrInfo α))
    (groups : List (Family × List (AddrInfo α))) :
    ((addrinfos.foldl (fun groups addr => insertByFamily addr groups) groups).map
      Prod.snd).flatten.Perm ((groups.map Prod.snd).flatten ++ addrinfos) := by
  induction addrinfos generalizing groups with
  | nil => rw [List.foldl_nil, List.append_nil]
  | cons addr addrinfos ih =>
    rw [List.foldl_cons]
    refine (ih _).trans (((perm_insertByFamily addr groups).append_right addrinfos).trans ?_)
    exact List.perm_middle.symm

/-- The first entries, and the rest. -/
theorem perm_heads (groups : List (List (AddrInfo α))) :
    (groups.filterMap List.head? ++ (groups.map List.tail).flatten).Perm groups.flatten := by
  induction groups with
  | nil => rfl
  | cons group groups ih =>
    cases group with
    | nil => exact ih
    | cons addr group =>
      rw [List.filterMap_cons, List.head?_cons, List.map_cons, List.flatten_cons, List.flatten_cons,
        List.tail_cons]
      refine List.Perm.cons addr ?_
      exact (List.perm_append_comm_assoc _ group _).trans (ih.append_left group)

theorem perm_roundRobin {fuel : ℕ} {groups : List (List (AddrInfo α))}
    (h : ∀ group ∈ groups, group.length ≤ fuel) : (roundRobin fuel groups).Perm groups.flatten := by
  induction fuel generalizing groups with
  | zero =>
    have hnil : groups.flatten = [] := List.flatten_eq_nil_iff.2 fun group hgroup =>
      List.length_eq_zero_iff.1 (Nat.le_zero.1 (h group hgroup))
    rw [roundRobin, hnil]
  | succ fuel ih =>
    rw [roundRobin]
    refine ((ih ?_).append_left _).trans (perm_heads groups)
    intro group hgroup
    obtain ⟨group', hgroup', rfl⟩ := List.mem_map.1 hgroup
    have := h group' hgroup'
    rw [List.length_tail]
    omega

theorem perm_interleaveAddrinfos (addrinfos : List (AddrInfo α)) :
    (interleaveAddrinfos addrinfos).Perm addrinfos := by
  have hgroups := perm_byFamily addrinfos []
  refine (perm_roundRobin fun group hgroup => ?_).trans hgroups
  have hsublist := List.sublist_flatten_of_mem hgroup
  exact hsublist.length_le.trans_eq hgroups.length_eq

/-! ## IPv6 first -/

theorem prioritizeLoop_head (v4Found : Bool) (addr : AddrInfo α)
    (reordered addrinfos : List (AddrInfo α)) :
    ∃ rest, prioritizeLoop true v4Found (addr :: reordered) addrinfos = addr :: rest := by
  induction addrinfos generalizing v4Found reordered with
  | nil => exact ⟨reordered, rfl⟩
  | cons addr' addrinfos ih =>
    rw [prioritizeLoop, if_neg fun h => h.2 rfl]
    split_ifs
    · exact ih true (addr' :: reordered)
    · exact ih v4Found (reordered ++ [addr'])

theorem prioritizeLoop_ipv6 (v4Found : Bool) (reordered : List (AddrInfo α))
    (h : ∃ addr ∈ addrinfos, addr.family = .AF_INET6) :
    ∃ addr rest, prioritizeLoop false v4Found reordered addrinfos = addr :: rest ∧
      addr.family = .AF_INET6 := by
  induction addrinfos generalizing v4Found reordered with
  | nil =>
    obtain ⟨_, hmem, -⟩ := h
    cases hmem
  | cons addr addrinfos ih =>
    rw [prioritizeLoop]
    by_cases hfamily : addr.family = .AF_INET6
    · rw [if_pos ⟨hfamily, Bool.false_ne_true⟩]
      obtain ⟨rest, hrest⟩ := prioritizeLoop_head v4Found addr reordered addrinfos
      exact ⟨addr, rest, hrest, hfamily⟩
    · rw [if_neg fun h => hfamily h.1, if_neg fun h => Bool.false_ne_true h.2.2]
      obtain ⟨addr', hmem, haddr'⟩ := h
      rcases List.mem_cons.1 hmem with rfl | hmem
      · exact absurd haddr' hfamily
      · exact ih v4Found _ ⟨addr', hmem, haddr'⟩

/-! ## Two families -/

/-- The addresses of a family. -/
def ofFamily (family : Family) (addrinfos : List (AddrInfo α)) : List (AddrInfo α) :=
  addrinfos.filter fun addr => addr.family = family

theorem mem_ofFamily {family : Family} :
    addr ∈ ofFamily family addrinfos ↔ addr ∈ addrinfos ∧ addr.family = family := by
  rw [ofFamily, List.mem_filter, decide_eq_true_eq]

theorem ofFamily_cons_self {family : Family} (h : addr.family = family)
    (addrinfos : List (AddrInfo α)) :
    ofFamily family (addr :: addrinfos) = addr :: ofFamily family addrinfos :=
  List.filter_cons_of_pos (decide_eq_true h)

theorem ofFamily_cons_of_ne {family : Family} (h : addr.family ≠ family)
    (addrinfos : List (AddrInfo α)) :
    ofFamily family (addr :: addrinfos) = ofFamily family addrinfos :=
  List.filter_cons_of_neg (by rwa [decide_eq_true_eq])

variable {F G : Family}

/-- The groups when both families have been met. -/
theorem byFamily_two (hne : F ≠ G) (h : ∀ addr ∈ addrinfos, addr.family = F ∨ addr.family = G)
    (as bs : List (AddrInfo α)) :
    addrinfos.foldl (fun groups addr => insertByFamily addr groups) [(F, as), (G, bs)] =
      [(F, as ++ ofFamily F addrinfos), (G, bs ++ ofFamily G addrinfos)] := by
  induction addrinfos generalizing as bs with
  | nil =>
    have hF : as ++ ofFamily F [] = as := List.append_nil as
    have hG : bs ++ ofFamily G [] = bs := List.append_nil bs
    rw [List.foldl_nil, hF, hG]
  | cons addr addrinfos ih =>
    have hrest := ih fun addr' h' => h addr' (List.mem_cons_of_mem addr h')
    rw [List.foldl_cons, insertByFamily]
    rcases h addr List.mem_cons_self with hF | hG
    · rw [if_pos hF.symm, hrest, ofFamily_cons_self hF,
        ofFamily_cons_of_ne fun hG => hne (hF.symm.trans hG), List.append_assoc,
        List.singleton_append]
    · rw [if_neg fun hF => hne (hF.trans hG), insertByFamily, if_pos hG.symm, hrest,
        ofFamily_cons_self hG, ofFamily_cons_of_ne fun hF => hne (hF.symm.trans hG),
        List.append_assoc, List.singleton_append]

/-- The groups when one family has been met. -/
theorem byFamily_one (hne : F ≠ G) (h : ∀ addr ∈ addrinfos, addr.family = F ∨ addr.family = G)
    (as : List (AddrInfo α)) :
    addrinfos.foldl (fun groups addr => insertByFamily addr groups) [(F, as)] =
      (F, as ++ ofFamily F addrinfos) ::
        if ofFamily G addrinfos = [] then [] else [(G, ofFamily G addrinfos)] := by
  induction addrinfos generalizing as with
  | nil =>
    have hF : as ++ ofFamily F [] = as := List.append_nil as
    rw [List.foldl_nil, hF]
    rfl
  | cons addr addrinfos ih =>
    have hrest := fun addr' h' => h addr' (List.mem_cons_of_mem addr h')
    rw [List.foldl_cons, insertByFamily]
    rcases h addr List.mem_cons_self with hF | hG
    · rw [if_pos hF.symm, ih hrest, ofFamily_cons_self hF,
        ofFamily_cons_of_ne fun hG => hne (hF.symm.trans hG), List.append_assoc,
        List.singleton_append]
    · rw [if_neg fun hF => hne (hF.trans hG), insertByFamily, hG, byFamily_two hne hrest,
        ofFamily_cons_self hG, ofFamily_cons_of_ne fun hF => hne (hF.symm.trans hG),
        if_neg (List.cons_ne_nil _ _), List.singleton_append]

/-- Two groups take turns. -/
theorem roundRobin_two {fuel : ℕ} {as bs : List (AddrInfo α)} (has : as.length ≤ fuel)
    (hbs : bs.length ≤ fuel) : roundRobin fuel [as, bs] = alternate as bs := by
  induction fuel generalizing as bs with
  | zero =>
    rw [List.length_eq_zero_iff.1 (Nat.le_zero.1 has),
      List.length_eq_zero_iff.1 (Nat.le_zero.1 hbs), alternate_nil_left, roundRobin]
  | succ fuel ih =>
    have hrest : roundRobin fuel [as.tail, bs.tail] = alternate as.tail bs.tail :=
      ih (by rw [List.length_tail]; omega) (by rw [List.length_tail]; omega)
    rw [roundRobin, List.map_cons, List.map_cons, List.map_nil, hrest]
    cases as with
    | nil =>
      cases bs with
      | nil => rfl
      | cons b bs =>
        rw [alternate_nil_left, List.tail_nil, alternate_nil_left]
        rfl
    | cons a as =>
      cases bs with
      | nil =>
        rw [alternate_nil_right, List.tail_nil, alternate_nil_right]
        rfl
      | cons b bs =>
        rw [alternate_cons, alternate_cons]
        rfl

theorem roundRobin_one {fuel : ℕ} {as : List (AddrInfo α)} (h : as.length ≤ fuel) :
    roundRobin fuel [as] = as := by
  induction fuel generalizing as with
  | zero => rw [List.length_eq_zero_iff.1 (Nat.le_zero.1 h), roundRobin]
  | succ fuel ih =>
    have hrest : roundRobin fuel [as.tail] = as.tail := ih (by rw [List.length_tail]; omega)
    rw [roundRobin, List.map_cons, List.map_nil, hrest]
    cases as with
    | nil => rfl
    | cons a as => rfl

/-- **Interleaving two families**: they take turns, and the one of the first address begins. -/
theorem interleaveAddrinfos_eq (hne : F ≠ G) (hF : addr.family = F)
    (h : ∀ addr' ∈ addrinfos, addr'.family = F ∨ addr'.family = G) :
    interleaveAddrinfos (addr :: addrinfos) =
      alternate (ofFamily F (addr :: addrinfos)) (ofFamily G (addr :: addrinfos)) := by
  have hG : ofFamily G (addr :: addrinfos) = ofFamily G addrinfos :=
    ofFamily_cons_of_ne (fun hG => hne (hF.symm.trans hG)) addrinfos
  have hgroups : (addr :: addrinfos).foldl (fun groups addr => insertByFamily addr groups) [] =
      (F, ofFamily F (addr :: addrinfos)) ::
        if ofFamily G addrinfos = [] then [] else [(G, ofFamily G addrinfos)] := by
    rw [List.foldl_cons, insertByFamily, hF, byFamily_one hne h, ofFamily_cons_self hF,
      List.singleton_append]
  have hleF : (ofFamily F (addr :: addrinfos)).length ≤ (addr :: addrinfos).length :=
    List.length_filter_le _ _
  have hleG : (ofFamily G addrinfos).length ≤ (addr :: addrinfos).length :=
    (List.length_filter_le _ _).trans (Nat.le_succ _)
  rw [interleaveAddrinfos, hgroups, hG]
  split_ifs with hnil
  · rw [hnil, alternate_nil_right]
    exact roundRobin_one hleF
  · exact roundRobin_two hleF hleG

/-- After the priority, addresses of two families take turns, and IPv6 begins if there is an IPv6
    address. -/
theorem addressOrder_eq
    (h : ∀ addr ∈ addrinfos, addr.family = .AF_INET ∨ addr.family = .AF_INET6) :
    ∃ F G as bs, F ≠ G ∧ interleaveAddrinfos (prioritizeIpv6OverIpv4 addrinfos) = alternate as bs ∧
      (∀ a ∈ as, a.family = F) ∧ (∀ b ∈ bs, b.family = G) ∧
      ((∃ addr ∈ addrinfos, addr.family = .AF_INET6) →
        F = .AF_INET6 ∧ G = .AF_INET ∧ as ≠ [] ∧
          ((∃ addr ∈ addrinfos, addr.family = .AF_INET) → bs ≠ [])) := by
  have hperm := perm_prioritizeIpv6OverIpv4 addrinfos
  have hfamily := fun addr hmem => h addr (hperm.mem_iff.1 hmem)
  have hne : Family.AF_INET6 ≠ Family.AF_INET := fun h => by cases h
  by_cases hipv6 : ∃ addr ∈ addrinfos, addr.family = .AF_INET6
  · obtain ⟨first, rest, hp, hfirst⟩ := prioritizeLoop_ipv6 false [] hipv6
    rw [← prioritizeIpv6OverIpv4] at hp
    rw [hp] at hfamily hperm ⊢
    refine ⟨.AF_INET6, .AF_INET, _, _, hne, interleaveAddrinfos_eq hne hfirst fun addr hmem =>
      (hfamily addr (List.mem_cons_of_mem _ hmem)).symm, fun a ha => (mem_ofFamily.1 ha).2,
      fun b hb => (mem_ofFamily.1 hb).2, fun _ => ⟨rfl, rfl, ?_, ?_⟩⟩
    · rw [ofFamily_cons_self hfirst]
      exact List.cons_ne_nil _ _
    · rintro ⟨addr, hmem, haddr⟩
      exact List.ne_nil_of_mem (mem_ofFamily.2 ⟨hperm.mem_iff.2 hmem, haddr⟩)
  · cases hp : prioritizeIpv6OverIpv4 addrinfos with
    | nil =>
      refine ⟨.AF_INET6, .AF_INET, [], [], hne, ?_, fun _ h => (by cases h),
        fun _ h => (by cases h), fun h => absurd h hipv6⟩
      rw [alternate_nil_left]
      rfl
    | cons first rest =>
      rw [hp] at hfamily hperm
      have hfirst : first.family = .AF_INET := (hfamily first List.mem_cons_self).resolve_right
        fun h => hipv6 ⟨first, hperm.mem_iff.1 List.mem_cons_self, h⟩
      exact ⟨.AF_INET, .AF_INET6, _, _, hne.symm, interleaveAddrinfos_eq hne.symm hfirst
        fun addr hmem => hfamily addr (List.mem_cons_of_mem _ hmem),
        fun a ha => (mem_ofFamily.1 ha).2, fun b hb => (mem_ofFamily.1 hb).2,
        fun h => absurd h hipv6⟩

/-- **The order of the addresses.** -/
theorem addressOrder_spec (addrinfos : List (AddrInfo α)) :
    (interleaveAddrinfos (prioritizeIpv6OverIpv4 addrinfos)).Perm addrinfos ∧
      ((∀ addr ∈ addrinfos, addr.family = .AF_INET ∨ addr.family = .AF_INET6) →
        ((∃ addr ∈ addrinfos, addr.family = .AF_INET6) → ∃ first rest,
          interleaveAddrinfos (prioritizeIpv6OverIpv4 addrinfos) = first :: rest ∧
            first.family = .AF_INET6) ∧
        ((∃ addr ∈ addrinfos, addr.family = .AF_INET6) →
          (∃ addr ∈ addrinfos, addr.family = .AF_INET) → ∃ first second rest,
            interleaveAddrinfos (prioritizeIpv6OverIpv4 addrinfos) = first :: second :: rest ∧
              second.family = .AF_INET) ∧
        ∀ before a b after,
          interleaveAddrinfos (prioritizeIpv6OverIpv4 addrinfos) = before ++ a :: b :: after →
            a.family = b.family → ∀ c ∈ after, c.family = a.family) := by
  refine ⟨(perm_interleaveAddrinfos _).trans (perm_prioritizeIpv6OverIpv4 addrinfos), fun h => ?_⟩
  obtain ⟨F, G, as, bs, hne, heq, has, hbs, hipv6⟩ := addressOrder_eq h
  rw [heq]
  refine ⟨fun hv6 => ?_, fun hv6 hv4 => ?_, fun before a b after hsplit hkind =>
    alternate_neighbours has hbs hne hsplit hkind⟩
  · obtain ⟨rfl, -, hnil, -⟩ := hipv6 hv6
    cases as with
    | nil => exact absurd rfl hnil
    | cons a as => exact ⟨a, _, alternate_cons a as bs, has a List.mem_cons_self⟩
  · obtain ⟨rfl, rfl, hnil, hboth⟩ := hipv6 hv6
    cases as with
    | nil => exact absurd rfl hnil
    | cons a as =>
      cases bs with
      | nil => exact absurd rfl (hboth hv4)
      | cons b bs =>
        refine ⟨a, b, alternate as bs, ?_, hbs b List.mem_cons_self⟩
        rw [alternate_cons, alternate_cons]

/-- Three IPv4 addresses and an IPv6 one in their middle. -/
theorem addressOrder_four : ∃ first second rest,
    interleaveAddrinfos (prioritizeIpv6OverIpv4
      [⟨.AF_INET, 1, 6, 0⟩, ⟨.AF_INET, 1, 6, 1⟩, ⟨.AF_INET6, 1, 6, 2⟩, ⟨.AF_INET, 1, 6, 3⟩]) =
        (first : AddrInfo ℕ) :: second :: rest ∧ second.family = .AF_INET := by
  refine ((addressOrder_spec _).2 ?_).2.1 ?_ ?_ <;> decide

end HappyEyeballs

end EasyNetwork

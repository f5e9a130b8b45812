import SwitchLdnZt.Library.Swapped
import SwitchLdnZt.Scripts.LdnPatch

namespace SwitchLdnZt.Proofs.AnchorSoundness
open Library Scripts.LdnPatch

/-- What stands before a function's signature and behind its body. -/
def outside (signature s : Text) : Option (Text × Text) := do
  let (before, rest) ← cut signature s
  let (_, inside) ← cut ['\x7b'] (signature ++ rest)
  let (_, after) ← closing '\x7b' '\x7d' 1 inside
  return (before, after)

def withBody (signature newBody : Text) (around : Text × Text) : Text :=
  around.1 ++ (signature ++ text " " ++ newBody ++ around.2)

/-- The anchors wanted once the two functions of lan_discovery.cpp have their new
bodies, and how many of each. -/
def laterAnchors : List (Text × Nat) :=
  (socketStream.1, 1) :: (bindFd.1, 2) :: lateSteps.map (fun step => (step.1, 1))

/-- Outside the bodies of both functions the later anchors are all there. -/
def FunctionsAnchored (s : Text) : Prop :=
  ∃ first, outside getBroadcast s = some first ∧
    ∃ second, outside setSocketOpts (withBody getBroadcast getBroadcastBody first) = some second ∧
      ∀ anchor ∈ laterAnchors,
        anchor.2 ≤ occurrences anchor.1 second.1 + occurrences anchor.1 second.2

structure DiscoveryAnchored (s : Text) : Prop where
  bridge : occurs bridgeInclude.1 s = true
  accept : occurs acceptBlock.1 s = true
  closes : 2 ≤ occurrences closeNewFd.1 s
  functions : FunctionsAnchored s

structure ICommunicationAnchored (s : Text) : Prop where
  inet : occurs inetInclude.1 s = true
  init : occurs initTry.1 s = true
  address : (outside getIpv4Address (replaceFirst initTry.1 initTry.2 s)).isSome = true

/-- Every anchor the patch goes by is in the sources it is given. -/
structure Anchored (src : LdnSource) : Prop where
  main : ∀ step ∈ mainSteps, occurs step.1 src.ldnmitmMain = true
  protocol : ∀ step ∈ lanProtocolSteps, occurs step.1 src.lanProtocol = true
  discovery : DiscoveryAnchored src.lanDiscovery
  communication : ICommunicationAnchored src.ldnICommunication

theorem then_ok_iff {ε α β : Type} {x : Except ε α} {f : α → Except ε β} :
    (∃ r, (x >>= f) = .ok r) ↔ ∃ a, x = .ok a ∧ ∃ r, f a = .ok r := by
  simp only [bind_ok]
  constructor
  · intro h
    rcases h with ⟨r, a, hx, hf⟩
    exact ⟨a, hx, r, hf⟩
  · intro h
    rcases h with ⟨a, hx, r, hf⟩
    exact ⟨r, a, hx, hf⟩

theorem replace_ok_iff {file : String} {old new s r : Text} :
    replace file old new s = .ok r ↔ occurs old s = true ∧ r = replaceFirst old new s := by
  unfold replace
  split
  next h => simp [h, eq_comm]
  next h => simp [h]

theorem replaceAtLeast_ok_iff {file : String} {k : Nat} {old new s r : Text} :
    replaceAtLeast file k old new s = .ok r ↔
      k ≤ occurrences old s ∧ r = replaceAll old new s := by
  unfold replaceAtLeast
  dsimp only
  split
  next h => simp [Nat.not_le.mpr h]
  next h => simp [Nat.le_of_not_lt h, eq_comm]

theorem replaceFunction_ok_iff {file : String} {signature newBody s r : Text} :
    replaceFunction file signature newBody s = .ok r ↔
      ∃ around, outside signature s = some around ∧ r = withBody signature newBody around := by
  unfold replaceFunction outside
  cases h₁ : cut signature s with
  | none => simp
  | some m₁ =>
    cases h₂ : cut ['\x7b'] (signature ++ m₁.2) with
    | none => simp [h₂]
    | some m₂ =>
      cases h₃ : closing '\x7b' '\x7d' 1 m₂.2 with
      | none => simp [h₂, h₃]
      | some m₃ => simp [h₂, h₃, withBody, eq_comm]

/-- Neither side of the earlier replacement can make or break an occurrence of
the later anchor. -/
def clear (earlier : Text × Text) (n : Text) : Bool := apart n earlier.1 && apart n earlier.2

theorem clear_apart {earlier : Text × Text} {n : Text} (h : clear earlier n = true) :
    ∀ y ∈ [earlier.1, earlier.2], Apart n y := by
  simp only [clear, Bool.and_eq_true] at h
  intro y hy
  rcases List.mem_pair.mp hy with rfl | rfl
  · exact .of_apart h.1
  · exact .of_apart h.2

theorem clear_ne_nil {earlier : Text × Text} {n : Text} (h : clear earlier n = true) : n ≠ [] :=
  (clear_apart h earlier.1 List.mem_cons_self).ne_nil

theorem occurs_replaceFirst {earlier : Text × Text} {n : Text} (h : clear earlier n = true)
    (s : Text) : occurs n (replaceFirst earlier.1 earlier.2 s) = occurs n s :=
  ((replaceFirst_swapped earlier.1 earlier.2 s).occurs (clear_ne_nil h) (clear_apart h)).symm

theorem occurrences_replaceFirst {earlier : Text × Text} {n : Text} (h : clear earlier n = true)
    (s : Text) : occurrences n (replaceFirst earlier.1 earlier.2 s) = occurrences n s :=
  ((replaceFirst_swapped earlier.1 earlier.2 s).occurrences (clear_ne_nil h)
    (clear_apart h)).symm

theorem occurs_replaceAll {earlier : Text × Text} {n : Text} (he : earlier.1 ≠ [])
    (h : clear earlier n = true) (s : Text) :
    occurs n (replaceAll earlier.1 earlier.2 s) = occurs n s :=
  ((replaceAll_swapped he earlier.2 s).occurs (clear_ne_nil h) (clear_apart h)).symm

/-- Replacements clear of each other all go through where the first text has all
the anchors. -/
theorem replaceEach_ok_iff {file : String} {steps : List (Text × Text)}
    (hp : steps.Pairwise (fun a b => clear a b.1 = true)) (s : Text) :
    (∃ r, replaceEach file s steps = .ok r) ↔ ∀ step ∈ steps, occurs step.1 s = true := by
  induction steps generalizing s with
  | nil => simp [replaceEach, pure, Except.pure]
  | cons step steps ih =>
    obtain ⟨hstep, hp⟩ := List.pairwise_cons.mp hp
    have hunfold : replaceEach file s (step :: steps) =
        replace file step.1 step.2 s >>= fun s => replaceEach file s steps := rfl
    have hlater : (∀ b ∈ steps, occurs b.1 (replaceFirst step.1 step.2 s) = true) ↔
        ∀ b ∈ steps, occurs b.1 s = true :=
      forall₂_congr fun b hb => by rw [occurs_replaceFirst (hstep b hb)]
    rw [hunfold, then_ok_iff, List.forall_mem_cons, ← hlater, ← ih hp]
    simp only [replace_ok_iff]
    constructor
    · intro h
      rcases h with ⟨a, ⟨ho, rfl⟩, hr⟩
      exact ⟨ho, hr⟩
    · intro h
      rcases h with ⟨ho, hr⟩
      exact ⟨_, ⟨ho, rfl⟩, hr⟩

/-- All that the first three replacements in lan_discovery.cpp take out or put in. -/
def early : List Text :=
  [bridgeInclude.1, bridgeInclude.2, acceptBlock.1, acceptBlock.2, closeNewFd.1, closeNewFd.2]

/-- The replacements of a file do not touch each other's anchors, nor a function
the patch looks for. -/
structure TextsClear : Prop where
  main : mainSteps.Pairwise (fun a b => clear a b.1 = true)
  protocol : lanProtocolSteps.Pairwise (fun a b => clear a b.1 = true)
  accept : clear bridgeInclude acceptBlock.1 = true
  closes : clear bridgeInclude closeNewFd.1 = true ∧ clear acceptBlock closeNewFd.1 = true
  early : ∀ y ∈ early, (apart ['\x7b'] y = true ∧ '\x7b' ∉ y ∧ '\x7d' ∉ y) ∧
    ∀ n ∈ getBroadcast :: setSocketOpts :: laterAnchors.map Prod.fst, apart n y = true
  later : ∀ anchor ∈ laterAnchors,
    apart anchor.1 (setSocketOpts ++ text " " ++ setSocketOptsBody) = true
  sockets : (socketStream :: bindFd :: lateSteps).Pairwise (fun a b => clear a b.1 = true)
  init : clear inetInclude initTry.1 = true
  inet : ∀ y ∈ [inetInclude.1, inetInclude.2],
    (apart ['\x7b'] y = true ∧ '\x7b' ∉ y ∧ '\x7d' ∉ y) ∧ apart getIpv4Address y = true

theorem texts_clear : TextsClear := by
  constructor <;> decide +kernel

/-- A replacement does meet its own anchor. -/
example : clear bridgeInclude bridgeInclude.1 = false := by decide +kernel

theorem early_apart {n : Text}
    (h : n ∈ getBroadcast :: setSocketOpts :: laterAnchors.map Prod.fst) :
    ∀ y ∈ early, Apart n y :=
  fun y hy => .of_apart ((texts_clear.early y hy).2 n h)

/-- A function keeps its place when only text without braces is swapped. -/
theorem outside_swapped {ys : List Text} {signature s t : Text} {around : Text × Text}
    (h : Swapped ys s t) (hsig : ∀ y ∈ ys, Apart signature y) (hne : signature ≠ [])
    (hbraces : ∀ y ∈ ys, apart ['\x7b'] y = true ∧ '\x7b' ∉ y ∧ '\x7d' ∉ y)
    (ho : outside signature s = some around) :
    ∃ around', outside signature t = some around' ∧
      Swapped ys around.1 around'.1 ∧ Swapped ys around.2 around'.2 := by
  simp only [outside, Option.bind_eq_bind, Option.bind_eq_some_iff, Option.pure_def,
    Option.some.injEq] at ho
  obtain ⟨⟨before, rest⟩, h₁, ⟨header, inside⟩, h₂, ⟨body, after⟩, h₃, rfl⟩ := ho
  rcases h.cut hne hsig with
    ⟨hn, -⟩ | ⟨b, r, b', r', hs, ht, hb, hr⟩
  · rw [h₁] at hn
    cases hn
  rw [h₁] at hs
  cases hs
  rcases ((Swapped.refl signature).append hr).cut (by simp)
    (fun y hy => .of_apart (hbraces y hy).1) with ⟨hn, -⟩ | ⟨c, i, c', i', hs, ht₂, -, hi⟩
  · rw [h₂] at hn
    cases hn
  rw [h₂] at hs
  cases hs
  rcases hi.closing (fun y hy => (hbraces y hy).2) 1 with ⟨hn, -⟩ | ⟨d, a, d', a', hs, ht₃, ha⟩
  · rw [h₃] at hn
    cases hn
  rw [h₃] at hs
  cases hs
  exact ⟨(b', a'), by simp [outside, ht, ht₂, ht₃], hb, ha⟩

theorem withBody_swapped {ys : List Text} {a b : Text × Text} (signature newBody : Text)
    (h₁ : Swapped ys a.1 b.1) (h₂ : Swapped ys a.2 b.2) :
    Swapped ys (withBody signature newBody a) (withBody signature newBody b) :=
  h₁.append ((Swapped.refl _).append h₂)

theorem functionsAnchored_swapped {s t : Text} (h : Swapped early s t)
    (hs : FunctionsAnchored s) : FunctionsAnchored t := by
  obtain ⟨first, h₁, second, h₂, hcount⟩ := hs
  have hbraces := fun y hy => (texts_clear.early y hy).1
  have hbroadcast := early_apart (n := getBroadcast) (by simp)
  have hsocket := early_apart (n := setSocketOpts) (by simp)
  obtain ⟨first', h₁', hb₁, ha₁⟩ := outside_swapped h hbroadcast
    (hbroadcast _ List.mem_cons_self).ne_nil hbraces h₁
  obtain ⟨second', h₂', hb₂, ha₂⟩ := outside_swapped
    (withBody_swapped getBroadcast getBroadcastBody hb₁ ha₁) hsocket
    (hsocket _ List.mem_cons_self).ne_nil hbraces h₂
  refine ⟨first', h₁', second', h₂', ?_⟩
  intro anchor ha
  have hapart := early_apart
    (List.mem_cons_of_mem _ (List.mem_cons_of_mem _ (List.mem_map_of_mem ha)))
  have hne := (hapart _ List.mem_cons_self).ne_nil
  rw [← hb₂.occurrences hne hapart, ← ha₂.occurrences hne hapart]
  exact hcount anchor ha

theorem functionsAnchored_iff {s t : Text} (h : Swapped early s t) :
    FunctionsAnchored s ↔ FunctionsAnchored t :=
  ⟨functionsAnchored_swapped h, functionsAnchored_swapped h.symm⟩

theorem laterAnchors_met {s : Text} :
    (∀ anchor ∈ laterAnchors, anchor.2 ≤ occurrences anchor.1 s) ↔
      occurs socketStream.1 s = true ∧ 2 ≤ occurrences bindFd.1 s ∧
        ∀ step ∈ lateSteps, occurs step.1 s = true := by
  have hone {n : Text} (hn : n ≠ []) : 1 ≤ occurrences n s ↔ occurs n s = true := by
    rw [occurs_iff_occurrences hn, Nat.one_le_iff_ne_zero]
  have hne : ∀ anchor ∈ laterAnchors, anchor.1 ≠ [] :=
    fun anchor h => (Apart.of_apart (texts_clear.later anchor h)).ne_nil
  have hsocket := hone (hne (socketStream.1, 1) List.mem_cons_self)
  have hlate : (∀ step ∈ lateSteps, 1 ≤ occurrences step.1 s) ↔
      ∀ step ∈ lateSteps, occurs step.1 s = true :=
    forall₂_congr fun step h => hone (hne (step.1, 1)
      (List.mem_cons_of_mem _ (List.mem_cons_of_mem _ (List.mem_map_of_mem h))))
  rw [laterAnchors, List.forall_mem_cons, List.forall_mem_cons, List.forall_mem_map, ← hsocket,
    ← hlate]

theorem replaceSockets_ok_iff (s : Text) :
    (∃ r, replaceSockets s = .ok r) ↔
      ∀ anchor ∈ laterAnchors, anchor.2 ≤ occurrences anchor.1 s := by
  obtain ⟨hsocket, hbind⟩ := List.pairwise_cons.mp texts_clear.sockets
  obtain ⟨hbind, hlate⟩ := List.pairwise_cons.mp hbind
  have hne : bindFd.1 ≠ [] := clear_ne_nil (hsocket bindFd List.mem_cons_self)
  have hcount := occurrences_replaceFirst (hsocket bindFd List.mem_cons_self) s
  have hafter : (∀ step ∈ lateSteps, occurs step.1 (replaceAll bindFd.1 bindFd.2
      (replaceFirst socketStream.1 socketStream.2 s)) = true) ↔
      ∀ step ∈ lateSteps, occurs step.1 s = true :=
    forall₂_congr fun step h => by
      rw [occurs_replaceAll hne (hbind step h),
        occurs_replaceFirst (hsocket step (List.mem_cons_of_mem _ h))]
  rw [laterAnchors_met, ← hafter, ← hcount, ← replaceEach_ok_iff hlate]
  simp only [replaceSockets, then_ok_iff, replace_ok_iff, replaceAtLeast_ok_iff]
  constructor
  · intro h
    rcases h with ⟨_, ⟨ho, rfl⟩, _, ⟨hc, rfl⟩, hr⟩
    exact ⟨ho, hc, hr⟩
  · intro h
    rcases h with ⟨ho, hc, hr⟩
    exact ⟨_, ⟨ho, rfl⟩, _, ⟨hc, rfl⟩, hr⟩

theorem functions_ok_iff (s : Text) :
    (∃ r, (replaceBoth s >>= replaceSockets) = .ok r) ↔ FunctionsAnchored s := by
  have hsum (second : Text × Text) :
      (∀ anchor ∈ laterAnchors, anchor.2 ≤
        occurrences anchor.1 (withBody setSocketOpts setSocketOptsBody second)) ↔
      ∀ anchor ∈ laterAnchors,
        anchor.2 ≤ occurrences anchor.1 second.1 + occurrences anchor.1 second.2 :=
    forall₂_congr fun anchor h => by
      rw [withBody, (Apart.of_apart (texts_clear.later anchor h)).occurrences_between]
  rw [then_ok_iff]
  simp only [replaceSockets_ok_iff, replaceBoth, bind_ok, replaceFunction_ok_iff]
  constructor
  · intro h
    rcases h with ⟨_, ⟨_, ⟨first, h₁, rfl⟩, second, h₂, rfl⟩, hcount⟩
    exact ⟨first, h₁, second, h₂, (hsum second).mp hcount⟩
  · intro h
    rcases h with ⟨first, h₁, second, h₂, hcount⟩
    exact ⟨_, ⟨_, ⟨first, h₁, rfl⟩, second, h₂, rfl⟩, (hsum second).mpr hcount⟩

/-- None of the first three replacements in lan_discovery.cpp moves a function. -/
theorem functionsAnchored_early (s : Text) :
    FunctionsAnchored (replaceAll closeNewFd.1 closeNewFd.2
      (replaceFirst acceptBlock.1 acceptBlock.2
        (replaceFirst bridgeInclude.1 bridgeInclude.2 s))) ↔ FunctionsAnchored s := by
  have hne : closeNewFd.1 ≠ [] := clear_ne_nil texts_clear.closes.1
  have hbridge (s : Text) : Swapped early s (replaceFirst bridgeInclude.1 bridgeInclude.2 s) :=
    (replaceFirst_swapped _ _ s).mono (by simp [early])
  have haccept (s : Text) : Swapped early s (replaceFirst acceptBlock.1 acceptBlock.2 s) :=
    (replaceFirst_swapped _ _ s).mono (by simp [early])
  have hclose (s : Text) : Swapped early s (replaceAll closeNewFd.1 closeNewFd.2 s) :=
    (replaceAll_swapped hne _ s).mono (by simp [early])
  rw [← functionsAnchored_iff (hclose _), ← functionsAnchored_iff (haccept _),
    ← functionsAnchored_iff (hbridge s)]

theorem discovery_ok_iff (s : Text) :
    (∃ r, patchLanDiscovery s = .ok r) ↔ DiscoveryAnchored s := by
  have haccept := occurs_replaceFirst texts_clear.accept s
  have hclose : occurrences closeNewFd.1 (replaceFirst acceptBlock.1 acceptBlock.2
      (replaceFirst bridgeInclude.1 bridgeInclude.2 s)) = occurrences closeNewFd.1 s := by
    rw [occurrences_replaceFirst texts_clear.closes.2,
      occurrences_replaceFirst texts_clear.closes.1]
  constructor
  · intro h
    simp only [patchLanDiscovery, then_ok_iff, replace_ok_iff, replaceAtLeast_ok_iff] at h
    obtain ⟨_, ⟨hb, rfl⟩, _, ⟨ha, rfl⟩, _, ⟨hc, rfl⟩, h⟩ := h
    rw [← then_ok_iff, functions_ok_iff, functionsAnchored_early] at h
    exact ⟨hb, haccept ▸ ha, hclose ▸ hc, h⟩
  · intro h
    rcases h with ⟨hb, ha, hc, h⟩
    rw [← functionsAnchored_early, ← functions_ok_iff] at h
    simp only [patchLanDiscovery, then_ok_iff, replace_ok_iff, replaceAtLeast_ok_iff]
    exact ⟨_, ⟨hb, rfl⟩, _, ⟨haccept.trans ha, rfl⟩, _, ⟨hclose.symm ▸ hc, rfl⟩, then_ok_iff.mp h⟩

theorem address_swapped {s t : Text} (h : Swapped [inetInclude.1, inetInclude.2] s t)
    (hs : (outside getIpv4Address s).isSome = true) :
    (outside getIpv4Address t).isSome = true := by
  obtain ⟨around, ho⟩ := Option.isSome_iff_exists.mp hs
  have hapart : ∀ y ∈ [inetInclude.1, inetInclude.2], Apart getIpv4Address y :=
    fun y hy => .of_apart (texts_clear.inet y hy).2
  obtain ⟨around', ho', -, -⟩ := outside_swapped h hapart
    (hapart _ List.mem_cons_self).ne_nil (fun y hy => (texts_clear.inet y hy).1) ho
  exact Option.isSome_iff_exists.mpr ⟨around', ho'⟩

theorem iCommunication_ok_iff (s : Text) :
    (∃ r, patchICommunication s = .ok r) ↔ ICommunicationAnchored s := by
  have hinit := occurs_replaceFirst texts_clear.init s
  have hswap := (replaceFirst_swapped inetInclude.1 inetInclude.2 s).replaceFirst
    (clear_ne_nil texts_clear.init) (clear_apart texts_clear.init) initTry.2
  constructor
  · intro h
    simp only [patchICommunication, then_ok_iff, replace_ok_iff, replaceFunction_ok_iff] at h
    obtain ⟨_, ⟨hi, rfl⟩, _, ⟨ht, rfl⟩, _, around, ho, rfl⟩ := h
    refine ⟨hi, hinit ▸ ht, address_swapped hswap.symm ?_⟩
    exact Option.isSome_iff_exists.mpr ⟨around, ho⟩
  · intro h
    rcases h with ⟨hi, ht, ho⟩
    obtain ⟨around, ho⟩ := Option.isSome_iff_exists.mp (address_swapped hswap ho)
    simp only [patchICommunication, then_ok_iff, replace_ok_iff, replaceFunction_ok_iff]
    exact ⟨_, ⟨hi, rfl⟩, _, ⟨hinit.trans ht, rfl⟩, _, around, ho, rfl⟩

/-- The patch goes through on exactly the sources that hold its anchors. -/
theorem patchSources_ok_iff (src : LdnSource) :
    (∃ out, patchSources src = .ok out) ↔ Anchored src := by
  constructor
  · intro h
    rcases h with ⟨out, h⟩
    unfold patchSources at h
    obtain ⟨m, hm, h⟩ := bind_ok.mp h
    obtain ⟨p, hp, h⟩ := bind_ok.mp h
    obtain ⟨d, hd, h⟩ := bind_ok.mp h
    obtain ⟨c, hc, -⟩ := bind_ok.mp h
    exact ⟨(replaceEach_ok_iff texts_clear.main _).mp ⟨m, hm⟩,
      (replaceEach_ok_iff texts_clear.protocol _).mp ⟨p, hp⟩,
      (discovery_ok_iff _).mp ⟨d, hd⟩, (iCommunication_ok_iff _).mp ⟨c, hc⟩⟩
  · intro h
    rcases h with ⟨hm, hp, hd, hc⟩
    obtain ⟨m, hm⟩ := (replaceEach_ok_iff texts_clear.main _).mpr hm
    obtain ⟨p, hp⟩ := (replaceEach_ok_iff texts_clear.protocol _).mpr hp
    obtain ⟨d, hd⟩ := (discovery_ok_iff _).mpr hd
    obtain ⟨c, hc⟩ := (iCommunication_ok_iff _).mpr hc
    exact ⟨⟨p, d, c, m⟩, bind_ok.mpr ⟨m, hm, bind_ok.mpr ⟨p, hp,
      bind_ok.mpr ⟨d, hd, bind_ok.mpr ⟨c, hc, rfl⟩⟩⟩⟩⟩

/-- The patch takes what the checker lets through just where that has the patch's
own anchors too. -/
theorem checker_sound_iff (src : LdnSource) :
    (accepts src = true → ∃ out, patchSources src = .ok out) ↔
      (accepts src = true → Anchored src) := by
  rw [patchSources_ok_iff]

/-- The checker reads no more from a file than that. -/
theorem checkFile_ok {file : String} {s : Text} {needles : List Text}
    (h : ∀ needle ∈ needles, needle ≠ [] ∧ occurs needle s = true)
    (hbind : file = "lan_discovery.cpp" → occurrences bindAnchor s = 2) :
    checkFile file s needles = .ok () := by
  induction needles with
  | nil => rfl
  | cons needle needles ih =>
    obtain ⟨⟨hne, hocc⟩, hrest⟩ := List.forall_mem_cons.mp h
    have hpos : occurrences needle s ≠ 0 := (occurs_iff_occurrences hne).mp hocc
    have htwo : ¬ (file = "lan_discovery.cpp" ∧ needle = bindAnchor ∧
        occurrences needle s ≠ 2) := by
      intro h
      rcases h with ⟨hf, rfl, hcount⟩
      exact hcount (hbind hf)
    rw [checkFile, if_neg hpos, if_neg htwo]
    exact ih hrest

/-- A file that has these texts and nothing else, each on a line of its own. -/
def bareFile (ls : List Text) : Text := ls.flatMap (· ++ ['\n'])

theorem occurs_bareFile {n : Text} {ls : List Text} (h : n ∈ ls) :
    occurs n (bareFile ls) = true := by
  obtain ⟨a, b, rfl⟩ := List.append_of_mem h
  exact occurs_iff.mpr ⟨bareFile a, '\n' :: bareFile b, by simp [bareFile]⟩

theorem occurrences_bareFile {n : Text} {ls : List Text}
    (h : ∀ l ∈ ls, apart n (l ++ ['\n']) = true) (t : Text) :
    occurrences n (bareFile ls ++ t) = occurrences n t := by
  induction ls with
  | nil => rfl
  | cons l ls ih =>
    obtain ⟨hl, hls⟩ := List.forall_mem_cons.mp h
    have hbetween := (Apart.of_apart hl).occurrences_between [] (bareFile ls ++ t)
    rw [ih hls, List.nil_append] at hbetween
    rw [bareFile, List.flatMap_cons, List.append_assoc, ← bareFile, hbetween]
    exact Nat.zero_add _

def bareSource : LdnSource where
  lanProtocol := bareFile lanProtocolAnchors
  lanDiscovery := bareFile (bindAnchor :: lanDiscoveryAnchors)
  ldnICommunication := bareFile ldnICommunicationAnchors
  ldnmitmMain := bareFile ldnmitmMainAnchors

theorem bareSource_binds : occurrences bindAnchor bareSource.lanDiscovery = 2 := by
  have hclear : ∀ l ∈ [] :: (lanDiscoveryAnchors.take 5 ++ lanDiscoveryAnchors.drop 6),
      apart bindAnchor (l ++ ['\n']) = true := by decide +kernel
  have hne : bindAnchor ≠ [] := (Apart.of_apart (hclear [] List.mem_cons_self)).ne_nil
  have hlines : bareSource.lanDiscovery =
      bindAnchor ++ (bareFile ([] :: lanDiscoveryAnchors.take 5) ++
        (bindAnchor ++ (bareFile ([] :: lanDiscoveryAnchors.drop 6) ++ []))) := by
    simp [bareSource, bareFile, lanDiscoveryAnchors]
  rw [hlines, occurrences_self hne, occurrences_bareFile (fun l h => hclear l ?_),
    occurrences_self hne, occurrences_bareFile (fun l h => hclear l ?_)]
  · rfl
  · rcases List.mem_cons.mp h with rfl | h
    · exact List.mem_cons_self
    · exact List.mem_cons_of_mem _ (List.mem_append_right _ h)
  · rcases List.mem_cons.mp h with rfl | h
    · exact List.mem_cons_self
    · exact List.mem_cons_of_mem _ (List.mem_append_left _ h)

theorem bareSource_accepted : accepts bareSource = true := by
  have hne : ∀ needle ∈ lanProtocolAnchors ++ lanDiscoveryAnchors ++ ldnICommunicationAnchors ++
      ldnmitmMainAnchors, needle ≠ [] := by decide
  have hprotocol : checkFile "lan_protocol.cpp" bareSource.lanProtocol lanProtocolAnchors =
      .ok () :=
    checkFile_ok (fun n h => ⟨hne n (by simp [h]), occurs_bareFile h⟩) (by simp)
  have hdiscovery : checkFile "lan_discovery.cpp" bareSource.lanDiscovery lanDiscoveryAnchors =
      .ok () :=
    checkFile_ok (fun n h => ⟨hne n (by simp [h]), occurs_bareFile (List.mem_cons_of_mem _ h)⟩)
      (fun _ => bareSource_binds)
  have hcommunication : checkFile "ldn_icommunication.cpp" bareSource.ldnICommunication
      ldnICommunicationAnchors = .ok () :=
    checkFile_ok (fun n h => ⟨hne n (by simp [h]), occurs_bareFile h⟩) (by simp)
  have hmain : checkFile "ldnmitm_main.cpp" bareSource.ldnmitmMain ldnmitmMainAnchors = .ok () :=
    checkFile_ok (fun n h => ⟨hne n (by simp [h]), occurs_bareFile h⟩) (by simp)
  have hcheck : anchorCheck bareSource = .ok () :=
    bind_ok.mpr ⟨(), hprotocol, bind_ok.mpr ⟨(), hdiscovery,
      bind_ok.mpr ⟨(), hcommunication, hmain⟩⟩⟩
  rw [accepts, hcheck]
  rfl

/-- The patch asks for the indentation and for the line behind it. -/
theorem checker_not_sound :
    ¬ ∀ src, accepts src = true → ∃ out, patchSources src = .ok out := by
  intro h
  obtain ⟨out, hout⟩ := h bareSource bareSource_accepted
  have hstop : (patchSources bareSource).isOk = false := by decide +kernel
  rw [hout] at hstop
  cases hstop

end SwitchLdnZt.Proofs.AnchorSoundness

/-
  GoBindings/Proofs/Reordering.lean
  =================================
  **The order of the files of a request.**

  What is generated depends on an environment only through what its index and its list of files
  find and which names its pool gives (`Environment.Alike.settleAll`). For files of which none is
  left out in either order, these are the same in both if each file is steady, no two extensions
  of a message have one number and every message has a full name
  (`CustomOptions.Reorders.environment_alike`). So the response is the same, wherever the options
  of services and methods are plain. If one of these conditions fails it may differ, though no
  file is left out.
-/
import GoBindings.Proofs.Fatality
import GoBindings.Proofs.IndexOrder
import GoBindings.Proofs.PoolOrder
import GoBindings.Proofs.UniqueIdentifiers

namespace GoBindings

/-! ### What is generated from -/

/-- The same is found in both. -/
structure Environment.Alike (env env' : Environment) : Prop where
  file? : ∀ name, env.files.find? (·.name == name) = env'.files.find? (·.name == name)
  index : env.index.Alike env'.index
  names : CustomOptions.SameNames env.custom env'.custom
  skipped? : ∀ file, env.custom.skipped? file = env'.custom.skipped? file
  settings : env.settings = env'.settings
  compilerVersion : env.compilerVersion = env'.compilerVersion

namespace Service

variable {custom custom' : CustomOptions} (h : CustomOptions.SameNames custom custom')
include h

theorem operationsFrom_of_sameNames (service : String) (index : Nat) (seen : List String)
    (methods : List Descriptor.Method) :
    operationsFrom custom service index seen methods =
      operationsFrom custom' service index seen methods := by
  induction methods generalizing index seen with
  | nil => rfl
  | cons m rest ih =>
    simp only [operationsFrom, operationOf, h.operation, ih]

theorem collectFrom_of_sameNames (f : Descriptor.File) (index : Nat)
    (declared : List Descriptor.Service) :
    collectFrom custom f index declared = collectFrom custom' f index declared := by
  induction declared generalizing index with
  | nil => rfl
  | cons d rest ih =>
    simp only [collectFrom, ofDeclaration, operationsFrom_of_sameNames h, h.service, ih]

theorem collect_of_sameNames (f : Descriptor.File)
    (hskipped : custom.skipped? f.name = custom'.skipped? f.name) :
    collect custom f = collect custom' f := by
  simp only [collect, reportUnavailable, hskipped, collectFrom_of_sameNames h]

end Service

namespace TypeMapper

variable {i j : TypeIndex} (h : i.Alike j) (home : Go.Package)
include h

theorem map_of_alike (imports : Go.Imports) (typeName referrer : String) :
    (⟨i, home⟩ : TypeMapper).map imports typeName referrer =
      (⟨j, home⟩ : TypeMapper).map imports typeName referrer := by
  simp only [map, h.resolve?]
  rfl

theorem bindOperations_of_alike (s : Service) (imports : Go.Imports) (ops : List NamedOperation) :
    Environment.bindOperations ⟨i, home⟩ s imports ops =
      Environment.bindOperations ⟨j, home⟩ s imports ops := by
  induction ops generalizing imports with
  | nil => rfl
  | cons op rest ih => simp only [Environment.bindOperations, map_of_alike h, ih]

theorem bindServices_of_alike (imports : Go.Imports) (services : List NamedService) :
    Environment.bindServices ⟨i, home⟩ imports services =
      Environment.bindServices ⟨j, home⟩ imports services := by
  induction services generalizing imports with
  | nil => rfl
  | cons s rest ih => simp only [Environment.bindServices, bindOperations_of_alike h, ih]

end TypeMapper

namespace Environment.Alike

variable {env env' : Environment} (h : env.Alike env')
include h

theorem sourcePackage (f : Descriptor.File) : env.sourcePackage f = env'.sourcePackage f := by
  rw [Environment.sourcePackage, Environment.sourcePackage, h.index.goPackage?, h.settings]

theorem outputPackage (f : Descriptor.File) : env.outputPackage f = env'.outputPackage f := by
  rw [Environment.outputPackage, Environment.outputPackage, h.sourcePackage, h.settings]

theorem seed (r : Registry) (path : String) : r.seed env.index path = r.seed env'.index path := by
  rw [Registry.seed, Registry.seed, Registry.typeClaims, Registry.typeClaims, h.index.messagesAt,
    h.index.enumsAt]

theorem generateServices (r : Registry) (f : Descriptor.File) (services : List Service) :
    env.generateServices r f services = env'.generateServices r f services := by
  simp only [Environment.generateServices, h.outputPackage, h.sourcePackage, h.settings, h.seed,
    TypeMapper.bindServices_of_alike h.index, h.compilerVersion]

theorem generateFile (r : Registry) (f : Descriptor.File) :
    env.generateFile r f = env'.generateFile r f := by
  simp only [Environment.generateFile, Service.collect_of_sameNames h.names f (h.skipped? f.name),
    h.generateServices]

theorem attempt (r : Registry) (target : String) :
    env.attempt r target = env'.attempt r target := by
  simp only [Environment.attempt, h.file?, h.generateFile]

theorem settleAll (r : Registry) (targets : List String) :
    env.settleAll r targets = env'.settleAll r targets :=
  settleAll_congr h.attempt r targets

end Environment.Alike

namespace CustomOptions

variable {files order : List Descriptor.File}

/-- Environments for the files in two orders find the same. -/
theorem Reorders.environment_alike (h : Reorders files order)
    (hsame : Interchangeable files order) (hnamed : ∀ f ∈ files, f.NamesMessages)
    (settings : Settings) (version : Option CompilerVersion) :
    (Environment.build files settings version).Alike
      (Environment.build order settings version) where
  file? name := find?_key_perm h.perm h.names name
  index := TypeIndex.build_alike h.perm h.names (definitions_eq_and_agree h.names h.whole).2.2
    hnamed settings
  names := sameNames h hsame
  skipped? file := by
    have hskipped : (build files).skipped = (build order).skipped :=
      h.whole.trans h.orderWhole.symm
    exact congrArg (List.lookup file) hskipped
  settings := rfl
  compilerVersion := rfl

end CustomOptions

/-! ### Requests -/

theorem readFiles_eq_ok_iff {files : List (List UInt8)} {declared : List Descriptor.File} :
    readFiles files = .ok declared ↔ files.mapM Descriptor.File.read? = some declared := by
  unfold readFiles
  cases files.mapM Descriptor.File.read? <;> simp

namespace Request

/-- The request with its files in another order, or with other files. -/
def withFiles (request : Request) (files : List (List UInt8)) : Request := { request with files }

/-- Whether the files can be read, have different names, and none is left out of the pool. -/
def isWhole (request : Request) : Bool :=
  (readFiles request.files).isOk && decide ((request.sources.map (·.name)).Nodup)
    && (CustomOptions.build request.sources).skipped.isEmpty

theorem isWhole_iff {request : Request} :
    request.isWhole ↔ readFiles request.files = .ok request.sources ∧
      (request.sources.map (·.name)).Nodup ∧
      (CustomOptions.build request.sources).skipped = [] := by
  rw [isWhole, Bool.and_eq_true, Bool.and_eq_true, decide_eq_true_iff, List.isEmpty_iff, and_assoc]
  unfold sources
  cases readFiles request.files <;> simp [Except.isOk, Except.toBool, Except.toOption]

theorem sources_perm {request other : Request} (hperm : request.files.Perm other.files)
    (h : readFiles request.files = .ok request.sources)
    (h' : readFiles other.files = .ok other.sources) :
    request.sources.Perm other.sources := by
  refine perm_of_forall₂ (mapM_eq_some_iff.mp (readFiles_eq_ok_iff.mp h))
    (mapM_eq_some_iff.mp (readFiles_eq_ok_iff.mp h')) hperm fun bytes _ f f' hf hf' => ?_
  exact Option.some.inj (hf.symm.trans hf')

/-- The files of a request can come in another order, if what is declared does not depend on
    their order. -/
theorem generate_reordered {request : Request} {order : List (List UInt8)}
    (hperm : request.files.Perm order) (h : request.isWhole)
    (h' : (request.withFiles order).isWhole)
    (hsame : CustomOptions.Interchangeable request.sources (request.withFiles order).sources)
    (hnamed : ∀ f ∈ request.sources, f.NamesMessages) :
    (generate (request.withFiles order)).outcome = (generate request).outcome := by
  obtain ⟨hread, hnames, hwhole⟩ := isWhole_iff.mp h
  obtain ⟨hread', -, hwhole'⟩ := isWhole_iff.mp h'
  have hreorders : CustomOptions.Reorders request.sources (request.withFiles order).sources :=
    ⟨sources_perm hperm hread hread', hnames, hwhole, hwhole'⟩
  cases hsettings : Settings.parse request.parameter with
  | error fault =>
    rw [generate_outcome_of_parse_error hsettings]
    exact generate_outcome_of_parse_error hsettings
  | ok settings =>
    have henv := environment?_eq_ok_iff.mpr ⟨settings, _, hsettings, hread, rfl⟩
    have henv' : (request.withFiles order).environment? = _ :=
      environment?_eq_ok_iff.mpr ⟨settings, _, hsettings, hread', rfl⟩
    have hsettled : (request.withFiles order).settled = request.settled := by
      rw [settled, settled, henv, henv']
      exact ((hreorders.environment_alike hsame hnamed settings
        request.compilerVersion).settleAll Registry.empty request.targets).symm
    rw [generate_outcome henv, generate_outcome henv', hsettled]

/-! ### A shop that comes early -/

/-- A file of the third version of the language; `parts` are its declarations. -/
def writeFile (name package : String) (dependencies : List String) (parts : List (List UInt8)) :
    List UInt8 :=
  Wire.writeText 1 name ++ Wire.writeText 2 package ++ dependencies.flatMap (Wire.writeText 3)
    ++ parts.flatten ++ Wire.writeText 12 "proto3"

/-- A field; `more` names its type, or what holds it. -/
def writeField (name : String) (number label type : Nat) (more : List UInt8) : List UInt8 :=
  Wire.writeText 1 name ++ Wire.writeNumber 3 number ++ Wire.writeNumber 4 label
    ++ Wire.writeNumber 5 type ++ more

/-- A message with a text called `name` under each number. -/
def writeMessage (name : String) (numbers : List Nat) : List UInt8 :=
  Wire.writeText 1 name ++ numbers.flatMap fun n => Wire.writeBytes 2 (writeField "name" n 1 9 [])

/-- An extension of the options of methods by a message. -/
def writeExtension (name type : String) (number : Nat) : List UInt8 :=
  Wire.writeBytes 7 (writeField name number 1 11
    (Wire.writeText 6 type ++ Wire.writeText 2 ".google.protobuf.MethodOptions"))

/-- The declaration of the options of methods, with extensions from a number on. -/
def writeMethodOptions (first : Nat) (fields : List UInt8) : List UInt8 :=
  writeFile "google/protobuf/descriptor.proto" "google.protobuf" []
    [Wire.writeBytes 4 (Wire.writeText 1 "MethodOptions" ++ fields
      ++ Wire.writeBytes 5 (Wire.writeNumber 1 first ++ Wire.writeNumber 2 536870912))]

/-- The file that declares how the name of an operation is chosen: by an extension with a number,
    whose messages hold it under another one. -/
def writeChoice (number inner : Nat) : List UInt8 :=
  writeFile "nexus/temporal/v1/options.proto" "nexus.temporal.v1"
    ["google/protobuf/descriptor.proto"]
    [Wire.writeBytes 4 (writeMessage "OperationOptions" [inner]),
      writeExtension "operation" ".nexus.temporal.v1.OperationOptions" number]

/-- A shop with two methods, one with options and one without. -/
def writeShop (other : String) (options : List UInt8) : List UInt8 :=
  let method (name : String) (options : List UInt8) : List UInt8 :=
    Wire.writeBytes 2 (Wire.writeText 1 name ++ Wire.writeText 2 ".Cart"
      ++ Wire.writeText 3 ".Cart" ++ Wire.writeBytes 4 options)
  writeFile "shop.proto" "shop" ["cart.proto"]
    [Wire.writeBytes 6 (Wire.writeText 1 "Shop" ++ method "Order" options ++ method other []),
      Wire.writeBytes 8 (Wire.writeText 11 "example.com/shop")]

/-- A file in no package with a message and, perhaps, other declarations. -/
def writeCart (parts : List (List UInt8)) : List UInt8 :=
  writeFile "cart.proto" "" []
    (Wire.writeBytes 4 (writeMessage "Cart" [])
      :: Wire.writeBytes 8 (Wire.writeText 11 "example.com/cart") :: parts)

def ofFiles (files : List (List UInt8)) : Request := ⟨["shop.proto"], none, none, files⟩

/-- The last file moves behind the first one. -/
theorem perm_of_last_moved {α : Type} (a b c d : α) : [a, b, c, d].Perm [a, d, b, c] :=
  (((List.Perm.swap _ _ _).cons _).trans (List.Perm.swap _ _ _)).cons _

/-- A shop that chooses the name of an operation, in two parts, comes before the choice is
    declared. -/
def earlyShop : Request × List (List UInt8) :=
  let options := writeMethodOptions 1000 []
  let choice := writeChoice 52001 1
  let shop := writeShop "Pay" (Wire.writeBytes 52001 (Wire.writeText 1 "Sell")
    ++ Wire.writeBytes 52001 (Wire.writeText 1 "Buy"))
  (ofFiles [writeCart [], options, choice, shop], [writeCart [], shop, options, choice])

/-- The choice is read all the same, though it is kept in one part or in two. -/
theorem generate_reordered_earlyShop :
    earlyShop.1.files.Perm earlyShop.2 ∧ earlyShop.1.isWhole ∧
      (earlyShop.1.withFiles earlyShop.2).isWhole ∧
      (∃ f ∈ earlyShop.1.sources, ∃ d ∈ f.services, ∃ m ∈ d.methods,
        (CustomOptions.poolBefore earlyShop.1.sources f).kept? f (m.optionBlock (d.fullName f)) ≠
          (CustomOptions.poolBefore (earlyShop.1.withFiles earlyShop.2).sources f).kept? f
            (m.optionBlock (d.fullName f)) ∧
        CustomOptions.Plain earlyShop.1.sources operationExtension f
          (m.optionBlock (d.fullName f)) ∧
        CustomOptions.Plain (earlyShop.1.withFiles earlyShop.2).sources operationExtension f
          (m.optionBlock (d.fullName f))) ∧
      (CustomOptions.build earlyShop.1.sources).operationName? "shop.Shop" "Order" = some "Buy" ∧
      (generate (earlyShop.1.withFiles earlyShop.2)).outcome = (generate earlyShop.1).outcome := by
  have hperm : earlyShop.1.files.Perm earlyShop.2 := perm_of_last_moved ..
  have hrun : earlyShop.1.isWhole ∧ (earlyShop.1.withFiles earlyShop.2).isWhole ∧
      CustomOptions.Interchangeable earlyShop.1.sources
        (earlyShop.1.withFiles earlyShop.2).sources ∧
      (∀ f ∈ earlyShop.1.sources, ∀ m ∈ f.messageTypes, m.1 ≠ "") ∧
      (CustomOptions.build earlyShop.1.sources).operationName? "shop.Shop" "Order" =
        some "Buy" := by
    decide +kernel
  obtain ⟨hwhole, horderWhole, hsame, hnamed, hchosen⟩ := hrun
  exact ⟨hperm, hwhole, horderWhole, by decide +kernel, hchosen,
    generate_reordered hperm hwhole horderWhole hsame hnamed⟩

/-! ### Orders that matter -/

/-- An enum with one value. -/
def writeEnum (name value : String) : List UInt8 :=
  Wire.writeText 1 name ++ Wire.writeBytes 2 (Wire.writeText 1 value)

/-- Two extensions have one number, and the first one that comes tells how to read it. -/
def twoLabels : Request × List (List UInt8) :=
  let options := writeMethodOptions 1000 []
  let choice := writeChoice 52001 1
  let label := writeFile "label.proto" "label" ["google/protobuf/descriptor.proto"]
    [Wire.writeBytes 4 (writeMessage "Label" [2]), writeExtension "label" ".label.Label" 52001]
  let shop := writeShop "Pay"
    (Wire.writeBytes 52001 (Wire.writeText 1 "Buy" ++ Wire.writeText 2 "Pay"))
  (ofFiles [writeCart [], options, shop, choice, label],
    [writeCart [], options, shop, label, choice])

/-- The options of a method hold a setting, which takes the place of the choice of a name if it
    is made before the options of methods are declared anew. -/
def madeSetting : Request × List (List UInt8) :=
  let options := writeMethodOptions 900 (Wire.writeBytes 2 (writeField "deprecated" 33 1 8 []))
  let choice := writeChoice 999 3
  let shop := writeShop "true" (Wire.writeBytes 999
    (Wire.writeBytes 2 (Wire.writeText 1 "deprecated") ++ Wire.writeText 3 "true"))
  (ofFiles [writeCart [], options, choice, shop], [writeCart [], shop, options, choice])

/-- Options set a member of a oneof and then the one that holds the name, which is set last unless
    they are kept before the oneof is declared, in the order of the numbers. -/
def rivalChoice : Request × List (List UInt8) :=
  let member (name type : String) (number : Nat) : List UInt8 :=
    Wire.writeBytes 2
      (writeField name number 1 11 (Wire.writeText 6 type ++ Wire.writeNumber 9 0))
  let options := writeMethodOptions 1000
    (Wire.writeBytes 3 (writeMessage "Choice" [1])
      ++ member "choice" ".google.protobuf.MethodOptions.Choice" 5
      ++ member "other" ".google.protobuf.MethodOptions.Choice" 6
      ++ Wire.writeBytes 8 (Wire.writeText 1 "either"))
  let choice := writeFile "nexus/temporal/v1/options.proto" "nexus.temporal.v1" []
    [Wire.writeBytes 4 (Wire.writeText 1 "Numbers"
        ++ Wire.writeBytes 5 (Wire.writeNumber 1 5 ++ Wire.writeNumber 2 6)),
      Wire.writeBytes 7
        (writeField "operation" 5 1 9 (Wire.writeText 2 ".nexus.temporal.v1.Numbers"))]
  let shop := writeShop "Buy" (Wire.writeBytes 6 [] ++ Wire.writeBytes 5 (Wire.writeText 1 "Buy"))
  (ofFiles [writeCart [], options, choice, shop], [writeCart [], shop, options, choice])

/-- Options hold the entry of a map behind the key of a number. Where they are kept as a number and
    what follows it, which is moved, what chooses the name is taken for the entry later. -/
def takenEntry : Request × List (List UInt8) :=
  let entry := Wire.writeText 1 "PartsEntry"
    ++ Wire.writeBytes 2 (writeField "key" 1 1 9 [])
    ++ Wire.writeBytes 2 (writeField "value" 2 1 9 [])
    ++ Wire.writeBytes 7 (Wire.writeNumber 7 1)
  let options := writeMethodOptions 1000
    (Wire.writeBytes 3 entry ++ Wire.writeBytes 2 (writeField "parts" 6 3 11
      (Wire.writeText 6 ".google.protobuf.MethodOptions.PartsEntry")))
  let part := Wire.writeText 1 "a part."
  let named := Wire.writeBytes 52001 (Wire.writeText 1 "Buy")
  let shop := writeShop "Buy" (Wire.writeNumber 6 part.length ++ part ++ named)
  (ofFiles [writeCart [], options, writeChoice 52001 1, shop],
    [writeCart [], shop, options, writeChoice 52001 1])

/-- What marks the entry of a map is nothing once the options of its message, which are declared
    anew, are interpreted. Where options were read with the map, the value of the entry is written
    although it was not set, and nests too deep for a message that is no entry. -/
def recalledEntry : Request × List (List UInt8) :=
  let link (name type : String) (number label kind : Nat) : List UInt8 :=
    writeField name number label kind (Wire.writeText 6 type)
  let deep := Wire.writeText 1 "Deep" ++ Wire.writeBytes 2 (link "deep" ".Deep" 1 1 10)
    ++ Wire.writeBytes 5 (Wire.writeNumber 1 2 ++ Wire.writeNumber 2 3)
  let cart := writeCart [Wire.writeBytes 4 deep]
  let options := writeMethodOptions 1000 [] ++ Wire.writeBytes 4
    (Wire.writeText 1 "MessageOptions" ++ Wire.writeBytes 2 (writeField "map_entry" 7 1 5 []))
  let choice := writeChoice 52001 1 ++ Wire.writeText 3 "cart.proto"
    ++ writeExtension "deep" ".Deep" 1001
  let part := Wire.writeText 1 "Part" ++ Wire.writeBytes 2 (writeField "key" 1 1 9 [])
    ++ Wire.writeBytes 2 (link "value" ".Cart" 2 1 11)
    ++ Wire.writeBytes 7 (Wire.writeNumber 7 (2 ^ 32))
  let nested := List.replicate 98 (Wire.writeKey 1 3) ++ [Wire.writeBytes 2 []]
    ++ List.replicate 98 (Wire.writeKey 1 4)
  let shop := writeShop "Buy" (Wire.writeBytes 1001 nested.flatten
      ++ Wire.writeBytes 52001 (Wire.writeText 1 "Buy"))
    ++ Wire.writeBytes 4 part
    ++ Wire.writeBytes 7 (link "parts" ".shop.Part" 2 3 11 ++ Wire.writeText 2 ".Deep")
  (ofFiles [cart, options, choice, shop], [cart, options, shop, choice])

/-- A name without a dot in front is looked for in a nearer scope if that is known. -/
def nearerScope : Request × List (List UInt8) :=
  let options := writeMethodOptions 1000 []
  let near := writeFile "near.proto" "c" [] [Wire.writeBytes 4 (writeMessage "M" [1])]
  let far := writeFile "far.proto" "" [] [Wire.writeBytes 4 (writeMessage "nexus.c.M" [2])]
  let scope := writeFile "scope.proto" "nexus.c" [] []
  let choice := writeFile "nexus/temporal/v1/options.proto" "nexus.temporal.v1"
    ["google/protobuf/descriptor.proto", "near.proto", "far.proto"]
    [writeExtension "operation" "c.M" 52001]
  let shop := writeShop "Pay"
    (Wire.writeBytes 52001 (Wire.writeText 1 "Buy" ++ Wire.writeText 2 "Pay"))
  (ofFiles [writeCart [], options, shop, near, far, choice, scope],
    [writeCart [], options, shop, near, far, scope, choice])

/-- What a message without a name holds has the name of something else in the index. -/
def namelessMessage : Request × List (List UInt8) :=
  let nameless := writeFile "nameless.proto" "" []
    [Wire.writeBytes 4 (writeMessage "" [] ++ Wire.writeBytes 4 (writeEnum "shopServiceName" "A")),
      Wire.writeBytes 8 (Wire.writeText 11 "example.com/shop")]
  let cart := writeCart [Wire.writeBytes 5 (writeEnum ".shopServiceName" "B")]
  let shop := writeShop "Pay" []
  (ofFiles [nameless, cart, shop], [cart, nameless, shop])

/-- Whether the response to a request, if there is one, tells of a fault. -/
def faulty? (request : Request) : Option Bool :=
  (generate request).outcome.toOption.map (·.error.isSome)

/-- Two orders of the files of a request, neither of which leaves out a file, have different
    responses. -/
structure OrderMatters (c : Request × List (List UInt8)) : Prop where
  perm : c.1.files.Perm c.2
  whole : c.1.isWhole
  orderWhole : (c.1.withFiles c.2).isWhole
  differs : (generate (c.1.withFiles c.2)).outcome ≠ (generate c.1).outcome

/-- The order matters in each of these cases, where one response tells of two operations of one
    name, or of an identifier that is used twice, and the other of no fault. The orders are
    interchangeable but for one thing: a number that two extensions share; options that are not
    plain, because they hold a setting, set another member of a oneof, do not carry a map as one or
    stand in a file in which the entry of a map is one no longer; a reference that is resolved to
    another message; and a message without a name. -/
theorem order_matters : OrderMatters twoLabels ∧ OrderMatters madeSetting ∧
    OrderMatters rivalChoice ∧ OrderMatters takenEntry ∧ OrderMatters recalledEntry ∧
    OrderMatters nearerScope ∧ OrderMatters namelessMessage := by
  -- whether there is a fault is enough to tell the responses apart, and cheaper than their texts
  have hmatters {c : Request × List (List UInt8)} (hperm : c.1.files.Perm c.2)
      (hrun : c.1.isWhole ∧ (c.1.withFiles c.2).isWhole ∧
        (c.1.withFiles c.2).faulty? ≠ c.1.faulty?) : OrderMatters c := by
    obtain ⟨hwhole, horderWhole, hdiffers⟩ := hrun
    refine ⟨hperm, hwhole, horderWhole, fun heq => hdiffers ?_⟩
    exact congrArg (fun outcome => outcome.toOption.map (·.error.isSome)) heq
  refine ⟨hmatters ?_ (by decide +kernel), hmatters ?_ (by decide +kernel),
    hmatters ?_ (by decide +kernel), hmatters ?_ (by decide +kernel),
    hmatters ?_ (by decide +kernel), hmatters ?_ (by decide +kernel),
    hmatters ?_ (by decide +kernel)⟩
  · exact (((List.Perm.swap _ _ _).cons _).cons _).cons _
  · exact perm_of_last_moved ..
  · exact perm_of_last_moved ..
  · exact perm_of_last_moved ..
  · exact ((List.Perm.swap _ _ _).cons _).cons _
  · exact (((((List.Perm.swap _ _ _).cons _).cons _).cons _).cons _).cons _
  · exact List.Perm.swap _ _ _

end Request

end GoBindings

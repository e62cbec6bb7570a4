import LiveTables.Engine
import LiveTables.Files

namespace LiveTables.Scenario

/-- One call of scripted outside code: steps to play first, then how it ends. -/
structure Turn (S α : Type) where
  during : List S := []
  outcome : Outcome α

/-- A loader that plays its turns in order. The tag tells it from others in events. -/
structure LoaderScript (S : Type) where
  tag : String
  turns : List (Turn S (List Record))

/-- A binding: one made before, or a new one. -/
inductive BindingSpec (S : Type) where
  | named (name : String)
  | fresh (type : RecordType) (loader : LoaderScript S) (managed : Bool)

inductive DiscoverySpec (S : Type) where
  | named (catalog : String)
  | fresh (bindings : List (BindingSpec S))
  /-- By outside code that gives the next round at each call, and the last one ever after. -/
  | rounds (rounds : List (List (BindingSpec S)))

inductive Query where
  | get (id : IdLiteral)
  | findByIndex (index : String) (values : List Value)
  | indexIds (index : String) (values : List Value)
  | findUnique (index : String) (values : List Value)
  | all
  | append (index : String) (id : IdLiteral) (values : List Value)

inductive Action (S : Type) where
  | query (q : Query)
  | queryType (type : RecordType) (q : Query)
  | reload
  | registerIndex (d : IndexDef)
  | size
  | isEmpty
  | sizeAndEmpty
  | generation
  | location
  | type
  | stats
  | describe
  | dump
  | same
  | snapshot (target : String)
  | erase (target : String)
  | downcast (type : RecordType) (target : Option String)
  | applyIndex (d : IndexDef)
  | insertKey (key : String) (id : IdLiteral)
  | keyIds (key : String)
  | containsKey (key : String)
  | createStore (location : String) (target : String)
  | unmark (target : String)
  | managed
  | discover (scope : String)
  | ensure (type : RecordType) (loader : LoaderScript S) (target : String)
  | ensureBinding (binding : BindingSpec S) (target : String)
  | storeOf (type : RecordType) (target : String)
  | contains (type : RecordType)
  | types
  | reloadAll
  | register (listener : String)
  | notify
  | names
  | name
  | fire
  | initialLoad
  | addListener (listener : String)
  | state
  | registry (target : String)

/-- A step makes an object under a name, uses one, or works on files. Steps nest: a scripted loader
or listener can play steps of its own before it ends, and those run while the call that reached it
is still under way. -/
inductive Step where
  | makeStore (target : String) (type : RecordType) (loader : LoaderScript Step)
      (location : String)
  | makeEmptyGeneration (target : String) (type : RecordType)
  | makeGeneration (target : String) (type : RecordType) (batch : List Record)
      (indexes : List IndexDef) (number : Nat)
  | makeBinding (target : String) (binding : BindingSpec Step)
  | makeCatalog (target : String) (bindings : List (BindingSpec Step))
  | makeRegistry (target : String) (location : Location)
  | makeHub (target : String)
  /-- A listener has a name of its own, and a label in events. -/
  | makeListener (target name label : String) (turns : List (Turn Step Unit))
  | makeCoordinator (target : String) (config : Config) (registry : Option String)
      (discovery : DiscoverySpec Step)
  | makeCoordinatorFromFile (target path : String) (bindings : List (BindingSpec Step))
  | putFile (path : String) (content : ByteArray)
  | getFile (path : String)
  | makeFolder (path : String)
  | readConfig (path : String)
  | writeDefaultConfig (path : String)
  | writeConfig (path : String) (config : Config)
  | use (object : String) (action : Action Step)
  | unknown (reason : String)
deriving Inhabited

end LiveTables.Scenario

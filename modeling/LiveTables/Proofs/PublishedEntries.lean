import LiveTables.Proofs.RegisteredIndexes

namespace LiveTables

namespace Store

variable {it earlier : Store}

end Store

namespace Engine

variable {e : Engine} {past : List (Engine × Move)}

end Engine

end LiveTables

namespace ElasticPool

inductive Json
  | null
  | bool (value : Bool)
  /-- A number written without sign, fraction and exponent, if a 64-bit word holds it. -/
  | word (value : UInt64)
  /-- Any other number, to the nearest float. -/
  | real (value : Float)
  | string (value : String)
  | array (items : List Json)
  | object (members : List (String × Json))

end ElasticPool

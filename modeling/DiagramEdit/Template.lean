import DiagramEdit.Dialect

/-!
# Starter diagrams

One small diagram of every dialect, to begin from.
-/

namespace DiagramEdit

namespace Template

def flowchartLines : List String :=
  ["flowchart TD",
   "    A[Start] --> B\x7bDecision?\x7d",
   "    B -->|Yes| C[Process A]",
   "    B -->|No| D[Process B]",
   "    C --> E[Result 1]",
   "    D --> E",
   "    E --> F[End]",
   "",
   "    style A fill:#6366f1,stroke:#4f46e5,color:#fff",
   "    style F fill:#10b981,stroke:#059669,color:#fff",
   "    style B fill:#f59e0b,stroke:#d97706,color:#fff"]

def sequenceLines : List String :=
  ["sequenceDiagram",
   "    participant U as User",
   "    participant C as Client",
   "    participant S as Server",
   "    participant D as Database",
   "",
   "    U->>C: Click Login",
   "    C->>S: POST /auth/login",
   "    S->>D: Query user",
   "    D-->>S: User data",
   "    S-->>C: JWT Token",
   "    C-->>U: Welcome!",
   "",
   "    Note over C,S: Encrypted connection"]

def classesLines : List String :=
  ["classDiagram",
   "    class Animal \x7b",
   "        +String name",
   "        +int age",
   "        +makeSound() void",
   "    \x7d",
   "    class Dog \x7b",
   "        +String breed",
   "        +fetch() void",
   "    \x7d",
   "    class Cat \x7b",
   "        +bool isIndoor",
   "        +purr() void",
   "    \x7d",
   "    Animal <|-- Dog",
   "    Animal <|-- Cat"]

def statesLines : List String :=
  ["stateDiagram-v2",
   "    [*] --> Idle",
   "    Idle --> Processing : Submit",
   "    Processing --> Success : Valid",
   "    Processing --> Error : Invalid",
   "    Error --> Idle : Retry",
   "    Success --> [*]",
   "",
   "    state Processing \x7b",
   "        [*] --> Validating",
   "        Validating --> Saving",
   "        Saving --> [*]",
   "    \x7d"]

def entitiesLines : List String :=
  ["erDiagram",
   "    CUSTOMER ||--o\x7b ORDER : places",
   "    ORDER ||--|\x7b LINE-ITEM : contains",
   "    PRODUCT ||--o\x7b LINE-ITEM : \"is in\"",
   "    CUSTOMER \x7b",
   "        int id PK",
   "        string name",
   "        string email",
   "    \x7d",
   "    ORDER \x7b",
   "        int id PK",
   "        date created",
   "        string status",
   "    \x7d"]

def mindmapLines : List String :=
  ["mindmap",
   "  root((Project))",
   "    Planning",
   "      Requirements",
   "      Timeline",
   "    Design",
   "      UI/UX",
   "      Architecture",
   "    Development",
   "      Frontend",
   "      Backend",
   "    Testing",
   "      Unit Tests",
   "      Integration"]

def pieLines : List String :=
  ["pie title Browser Market Share",
   "    \"Chrome\" : 65",
   "    \"Safari\" : 19",
   "    \"Firefox\" : 4",
   "    \"Edge\" : 4",
   "    \"Other\" : 8"]

def ganttLines : List String :=
  ["gantt",
   "    title Project Timeline",
   "    dateFormat YYYY-MM-DD",
   "    section Planning",
   "        Requirements    :a1, 2024-01-01, 14d",
   "        Design          :a2, after a1, 10d",
   "    section Development",
   "        Backend API     :b1, after a2, 21d",
   "        Frontend UI     :b2, after a2, 28d",
   "    section Testing",
   "        Integration     :c1, after b1, 14d",
   "        UAT             :c2, after c1, 7d"]

end Template

/-- The starter diagram of a dialect; its last line has no line feed. -/
def Dialect.template (dialect : Dialect) : Text :=
  let lines := match dialect with
    | .flowchart => Template.flowchartLines
    | .sequence => Template.sequenceLines
    | .classes => Template.classesLines
    | .states => Template.statesLines
    | .entities => Template.entitiesLines
    | .mindmap => Template.mindmapLines
    | .pie => Template.pieLines
    | .gantt => Template.ganttLines
  ['\n'].intercalate (lines.map String.toList)

/-- The diagram an editor starts with. -/
def defaultTemplate : Text :=
  Dialect.flowchart.template

end DiagramEdit
